import Idl.Proofs.Course
import Idl.Proofs.EvaluationOrder
import Idl.Proofs.Steady

/-!
# Methods on firm ground

Nodes that evaluate by themselves evaluate one after the other, each in the scope that the nodes
before it leave. What a node says is up to the end of its walk, however much has been evaluated
before: a leaf that passes both checks, one that fails one of them, or a reference without a
binding.
-/

namespace Idl

open Ty (Walk Core)
open Scope (Passes ResolvedAlong Steady)

variable {s s' : Scope} {t : Ty} {path : List Ref} {depth : Nat} {c : Core}

namespace Node

def type? : Node → Option Ty
  | argument v | result v => some v.type
  | attached _ => none

/-- The walk from the type of the node ends in the core. -/
def Ends (s : Scope) (n : Node) (c : Core) : Prop :=
  ∃ t path depth, n.type? = some t ∧ Walk s.next? t path depth c

/-- The type of the node has a walk to a leaf that passes both checks; an annotation evaluates. -/
def Grounded (s : Scope) : Node → Prop
  | argument v | result v => ∃ path depth l, Walk s.next? v.type path depth (.leaf l) ∧
      l.evaluate = .ok () ∧ l.validate = .ok ()
  | attached a => a.evaluate = .ok ()

theorem evaluate_of_type? {n : Node} (h : n.type? = some t) (s : Scope) :
    n.evaluate s = s.evaluate t := by
  cases n with
  | argument v | result v =>
    cases h
    rfl
  | attached a => cases h

theorem validate_of_type? {n : Node} (h : n.type? = some t) (s : Scope) :
    n.validate s = s.validate t := by
  cases n with
  | argument v | result v =>
    cases h
    rfl
  | attached a => cases h

theorem Ends.of_steady {n : Node} (h : n.Ends s c) (hs : Steady s s') : n.Ends s' c := by
  obtain ⟨t, path, depth, ht, hw⟩ := h
  exact ⟨t, path, depth, ht, hw.congr fun r _ => hs.next?_eq r⟩

theorem Ends.grounded {n : Node} {l : Leaf} (h : n.Ends s (.leaf l))
    (hl : l.evaluate = .ok () ∧ l.validate = .ok ()) : n.Grounded s := by
  obtain ⟨t, path, depth, ht, hw⟩ := h
  cases n with
  | argument v | result v =>
    cases ht
    exact ⟨path, depth, l, hw, hl⟩
  | attached a => cases ht

theorem evaluate_eq_ok_of_steady {n : Node} (h : (n.evaluate s).1 = .ok ()) (hs : Steady s s') :
    (n.evaluate s').1 = .ok () := by
  cases n with
  | argument v | result v =>
    obtain ⟨path, depth, l, hw, hl⟩ := Scope.evaluate_eq_ok_iff.1 h
    exact Scope.evaluate_eq_ok_iff.2 ⟨path, depth, l, hw.congr fun r _ => hs.next?_eq r, hl⟩
  | attached a => exact h

theorem Grounded.of_steady {n : Node} (h : n.Grounded s) (hs : Steady s s') : n.Grounded s' := by
  cases n with
  | argument v | result v =>
    obtain ⟨path, depth, l, hw, hl⟩ := h
    exact ⟨path, depth, l, hw.congr fun r _ => hs.next?_eq r, hl⟩
  | attached a => exact h

theorem Grounded.evaluate_eq_ok {n : Node} (h : n.Grounded s) : (n.evaluate s).1 = .ok () := by
  cases n with
  | argument v | result v =>
    obtain ⟨path, depth, l, hw, hl, -⟩ := h
    exact Scope.evaluate_eq_ok_iff.2 ⟨path, depth, l, hw, hl⟩
  | attached a => exact h

theorem Grounded.exists_ends {n : Node} (h : n.Grounded s) (ht : n.type? = some t) :
    ∃ l, n.Ends s (.leaf l) ∧ l.validate = .ok () := by
  cases n with
  | argument v | result v =>
    obtain ⟨path, depth, l, hw, -, hl⟩ := h
    exact ⟨l, ⟨v.type, path, depth, rfl, hw⟩, hl⟩
  | attached a => cases ht

/-- A node that evaluates resolves every reference on the walk of its type. -/
theorem exists_resolvedAlong_visit {n : Node} (h : (n.evaluate s).1 = .ok ()) :
    ∃ path, ResolvedAlong s path (s.visit .evaluation n).scope ∧
      ∀ t path' depth c, n.type? = some t → Walk s.next? t path' depth c → path' ⊆ path := by
  cases n with
  | argument v | result v =>
    obtain ⟨path, depth, l, hw, -⟩ := Scope.evaluate_eq_ok_iff.1 h
    refine ⟨path, (Scope.evaluate_of_walk hw).2, fun t path' depth' c ht hw' => ?_⟩
    cases ht
    obtain ⟨rfl, -⟩ := hw.unique hw'
    exact List.Subset.refl path
  | attached a => exact ⟨[], .nil s, nofun⟩

end Node

namespace Scope

/-- Nodes that evaluate do so one after the other, and how a node then validates is up to the end of
its walk. -/
theorem exists_passes_of_evaluate_eq_ok {nodes : List Node}
    (h : ∀ n ∈ nodes, (n.evaluate s).1 = .ok ()) :
    ∃ s' path, Passes .evaluation s nodes s' ∧ ResolvedAlong s path s' ∧
      ∀ n ∈ nodes, ∀ c, n.Ends s c → n.validate s' = c.validate := by
  induction nodes generalizing s with
  | nil => exact ⟨s, [], .nil s, .nil s, nofun⟩
  | cons n rest ih =>
    have hn := h n List.mem_cons_self
    obtain ⟨path, hfirst, hwalk⟩ := Node.exists_resolvedAlong_visit hn
    have hrest : ∀ n' ∈ rest, (n'.evaluate (s.visit .evaluation n).scope).1 = .ok () :=
      fun n' hn' => Node.evaluate_eq_ok_of_steady (h n' (List.mem_cons_of_mem n hn')) hfirst.steady
    obtain ⟨s', path', hpasses, hlast, hvalid⟩ := ih hrest
    have hboth := hfirst.append hlast
    refine ⟨s', path ++ path', .of_evaluate hn hpasses, hboth, fun n' hn' c hc => ?_⟩
    rcases List.mem_cons.1 hn' with rfl | hn'
    · obtain ⟨t, p, depth, ht, hw⟩ := hc
      have hsub := List.subset_append_of_subset_left path' (hwalk t p depth c ht hw)
      rw [Node.validate_of_type? ht]
      exact hboth.validate_eq hw hsub
    · exact hvalid n' hn' c (hc.of_steady hfirst.steady)

/-- Grounded nodes evaluate one after the other, and then those with a type validate. -/
theorem exists_passes_of_grounded {nodes : List Node} (h : ∀ n ∈ nodes, n.Grounded s) :
    ∃ s' path, Passes .evaluation s nodes s' ∧ ResolvedAlong s path s' ∧
      ∀ n ∈ nodes, ∀ t, n.type? = some t → n.validate s' = .ok () := by
  obtain ⟨s', path, hpasses, halong, hvalid⟩ :=
    exists_passes_of_evaluate_eq_ok fun n hn => (h n hn).evaluate_eq_ok
  refine ⟨s', path, hpasses, halong, fun n hn t ht => ?_⟩
  obtain ⟨l, hends, hl⟩ := (h n hn).exists_ends ht
  exact (hvalid n hn _ hends).trans hl

/-- However much has been evaluated before, a node says what the end of its walk says. -/
theorem evaluate_of_ends {n : Node} (hs : ResolvedAlong s path s') (h : n.Ends s c) :
    (n.evaluate s').1 = c.evaluate := by
  obtain ⟨t, path', depth, ht, hw⟩ := h
  rw [Node.evaluate_of_type? ht]
  exact (evaluate_of_walk (hs.walk hw)).1

end Scope
end Idl
