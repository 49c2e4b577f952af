import Idl.Proofs.Resolution
import Mathlib.Logic.Relation

/-!
# Circular types

A type is circular if the way from it comes to a reference that leads back to itself. The other
types are those with a walk to an end: only finitely many references can follow another, so a way
without an end would meet one of them again.
-/

namespace Idl.Scope

open Relation (TransGen ReflTransGen)
open Ty (Walk Core)

variable {s : Scope} {t : Ty} {r r' : Ref} {path : List Ref} {depth : Nat} {c : Core}

/-- The reference `r'` comes next after `r`, inside the vectors that `r` leads to. -/
def Leads (s : Scope) (r r' : Ref) : Prop := ∃ t, s.next? r = some t ∧ t.core = .ref r'

def Circular (s : Scope) (t : Ty) : Prop :=
  ∃ r r', t.core = .ref r ∧ ReflTransGen s.Leads r r' ∧ TransGen s.Leads r' r'

/-- The references at the cores of bindings and targets. -/
def followers (s : Scope) : List Ref :=
  (s.bindings.map Prod.snd ++ s.targets.map Prod.snd).filterMap fun u => u.core.ref?

theorem Leads.mem_followers (h : s.Leads r r') : r' ∈ s.followers := by
  obtain ⟨t, ht, hcore⟩ := h
  refine List.mem_filterMap.2 ⟨t, mem_of_next? ht, ?_⟩
  rw [hcore]
  rfl

/-- The way from `r` ends if no reference on it leads back to itself. `seen` holds the followers
that the way has met so far; there are at most `n` others. -/
theorem exists_walk_of_seen {n : Nat} {seen : List Ref} (hnodup : seen.Nodup)
    (hsub : seen ⊆ s.followers) (hn : s.followers.length ≤ seen.length + n)
    (hseen : ∀ x ∈ seen, ReflTransGen s.Leads x r)
    (hacyclic : ∀ x, ReflTransGen s.Leads r x → ¬ TransGen s.Leads x x) :
    ∃ path depth c, Walk s.next? (.ref r) path depth c := by
  induction n using Nat.strongRecOn generalizing seen r with
  | ind n ih =>
  cases hnext : s.next? r with
  | none => exact ⟨_, _, _, .stop hnext⟩
  | some u =>
    cases hcore : u.core with
    | leaf l =>
      have hend : Walk s.next? u.core.ty [] 0 (.leaf l) := by
        rw [hcore]
        exact .leaf l
      exact ⟨_, _, _, .hop hnext (.of_core hend)⟩
    | ref r' =>
      have hlead : s.Leads r r' := ⟨u, hnext, hcore⟩
      have hnew : r' ∉ seen := by
        intro hmem
        exact hacyclic r' (.single hlead) (.tail' (hseen r' hmem) hlead)
      have hnodup' : (r' :: seen).Nodup := List.nodup_cons.2 ⟨hnew, hnodup⟩
      have hsub' : r' :: seen ⊆ s.followers := List.cons_subset.2 ⟨hlead.mem_followers, hsub⟩
      have hlen := hnodup'.length_le_of_subset hsub'
      rw [List.length_cons] at hlen
      have hseen' : ∀ x ∈ r' :: seen, ReflTransGen s.Leads x r' := by
        intro x hx
        rcases List.mem_cons.1 hx with rfl | hx
        · exact .refl
        · exact (hseen x hx).tail hlead
      have hacyclic' : ∀ x, ReflTransGen s.Leads r' x → ¬ TransGen s.Leads x x :=
        fun x hx => hacyclic x (.head hlead hx)
      obtain ⟨path, depth, c, hw⟩ := ih (n - 1) (by omega) hnodup' hsub'
        (by rw [List.length_cons]; omega) hseen' hacyclic'
      have hw' : Walk s.next? u.core.ty path depth c := by rwa [hcore]
      exact ⟨_, _, _, .hop hnext (.of_core hw')⟩

theorem exists_walk_core (hw : Walk s.next? t path depth c) :
    ∃ depth', Walk s.next? t.core.ty path depth' c := by
  induction hw with
  | leaf l => exact ⟨0, .leaf l⟩
  | vec _ ih => exact ih
  | hop hr hw _ => exact ⟨_, .hop hr hw⟩
  | stop hr => exact ⟨0, .stop hr⟩

/-- The walk from what follows a reference is shorter. -/
theorem exists_walk_of_leads (h : s.Leads r r') (hw : Walk s.next? (.ref r) path depth c) :
    ∃ path' depth', Walk s.next? (.ref r') path' depth' c ∧ path'.length < path.length := by
  obtain ⟨u, hu, hcore⟩ := h
  cases hw with
  | stop hr => rw [hr] at hu; cases hu
  | hop hr hw =>
    obtain rfl := Option.some.inj (hr.symm.trans hu)
    obtain ⟨depth', hw'⟩ := exists_walk_core hw
    rw [hcore] at hw'
    exact ⟨_, depth', hw', Nat.lt_succ_self _⟩

theorem exists_walk_of_transGen (h : TransGen s.Leads r r')
    (hw : Walk s.next? (.ref r) path depth c) :
    ∃ path' depth', Walk s.next? (.ref r') path' depth' c ∧ path'.length < path.length := by
  induction h with
  | single h => exact exists_walk_of_leads h hw
  | tail _ h ih =>
    obtain ⟨path₁, depth₁, hw₁, hlt₁⟩ := ih
    obtain ⟨path₂, depth₂, hw₂, hlt₂⟩ := exists_walk_of_leads h hw₁
    exact ⟨path₂, depth₂, hw₂, Nat.lt_trans hlt₂ hlt₁⟩

/-- The types with a walk to an end are those that are not circular. -/
theorem exists_walk_iff_not_circular :
    (∃ path depth c, Walk s.next? t path depth c) ↔ ¬ s.Circular t := by
  constructor
  · rintro ⟨path, depth, c, hw⟩ ⟨r, r', hcore, hreach, hloop⟩
    obtain ⟨_, hr⟩ := exists_walk_core hw
    rw [hcore] at hr
    obtain ⟨p, n, hr'⟩ : ∃ p n, Walk s.next? (.ref r') p n c := by
      rcases Relation.reflTransGen_iff_eq_or_transGen.1 hreach with rfl | hreach
      · exact ⟨_, _, hr⟩
      · obtain ⟨p, n, hr', -⟩ := exists_walk_of_transGen hreach hr
        exact ⟨p, n, hr'⟩
    -- Once round the circle the walk would be the same and yet shorter.
    obtain ⟨p', n', hagain, hlt⟩ := exists_walk_of_transGen hloop hr'
    rw [(hagain.unique hr').1] at hlt
    exact Nat.lt_irrefl _ hlt
  · intro h
    cases hcore : t.core with
    | leaf l => exact ⟨_, _, _, .of_core (by rw [hcore]; exact .leaf l)⟩
    | ref r =>
      have hacyclic : ∀ x, ReflTransGen s.Leads r x → ¬ TransGen s.Leads x x :=
        fun x hx hloop => h ⟨r, x, hcore, hx, hloop⟩
      obtain ⟨path, depth, c, hw⟩ := exists_walk_of_seen (n := s.followers.length) List.nodup_nil
        (List.nil_subset _) (Nat.le_add_left _ _) (by simp) hacyclic
      exact ⟨_, _, _, .of_core (by rw [hcore]; exact hw)⟩

end Idl.Scope
