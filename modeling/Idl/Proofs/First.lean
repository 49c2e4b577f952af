import Idl.Var
import Mathlib.Data.List.Forall2
import Mathlib.Data.List.Induction
import Mathlib.Data.List.Nodup

/-!
# The first of a list

What stops a scan is the first element with some property, or the first whose key an earlier element
has. Either there is one, or the property holds of no element and the keys are distinct. A list of
variables is refused for the first variable whose name is taken.
-/

namespace Idl

variable {α β κ : Type} {p : α → Prop} {key : α → κ} {l : List α} {x : α}

/-- In `l`, the element `x` is the first with the property. -/
def First (p : α → Prop) (l : List α) (x : α) : Prop :=
  ∃ before after, l = before ++ x :: after ∧ (∀ y ∈ before, ¬ p y) ∧ p x

/-- In `l`, the element `x` is the first with the key of an element before it. -/
def FirstRepeat (key : α → κ) (l : List α) (x : α) : Prop :=
  ∃ before after, l = before ++ x :: after ∧ (before.map key).Nodup ∧ key x ∈ before.map key

theorem First.mem (h : First p l x) : x ∈ l := by
  obtain ⟨before, after, rfl, -⟩ := h
  exact List.mem_append_right before List.mem_cons_self

theorem First.holds (h : First p l x) : p x := by
  obtain ⟨before, after, -, -, hx⟩ := h
  exact hx

theorem forall_not_or_exists_first (p : α → Prop) (l : List α) :
    (∀ x ∈ l, ¬ p x) ∨ ∃ x, First p l x := by
  induction l with
  | nil => exact .inl nofun
  | cons x rest ih =>
    by_cases hx : p x
    · exact .inr ⟨x, [], rest, rfl, nofun, hx⟩
    · rcases ih with hrest | ⟨y, before, after, rfl, hbefore, hy⟩
      · exact .inl (List.forall_mem_cons.2 ⟨hx, hrest⟩)
      · exact .inr ⟨y, x :: before, after, rfl, List.forall_mem_cons.2 ⟨hx, hbefore⟩, hy⟩

theorem nodup_or_exists_firstRepeat (key : α → κ) (l : List α) :
    (l.map key).Nodup ∨ ∃ x, FirstRepeat key l x := by
  induction l using List.reverseRecOn with
  | nil => exact .inl List.nodup_nil
  | append_singleton l x ih =>
    rcases ih with hnodup | ⟨y, before, after, rfl, hnodup, hy⟩
    · by_cases hx : key x ∈ l.map key
      · exact .inr ⟨x, l, [], rfl, hnodup, hx⟩
      · left
        rw [List.map_append, List.map_singleton, ← List.concat_eq_append]
        exact List.Nodup.concat hx hnodup
    · exact .inr ⟨y, before, after ++ [x], by simp, hnodup, hy⟩

/-- Lists that agree element by element are divided at the same place. -/
theorem exists_eq_append_of_forall₂ {R : α → β → Prop} {before after : List α} {bs : List β}
    (h : List.Forall₂ R (before ++ x :: after) bs) :
    ∃ before' b after', bs = before' ++ b :: after' ∧ List.Forall₂ R before before' ∧
      List.Forall₂ R after after' ∧ R x b := by
  induction before generalizing bs with
  | nil =>
    obtain ⟨b, after', hb, hafter, rfl⟩ := List.forall₂_cons_left_iff.1 h
    exact ⟨[], b, after', rfl, .nil, hafter, hb⟩
  | cons a before ih =>
    obtain ⟨b, bs, hb, hrest, rfl⟩ := List.forall₂_cons_left_iff.1 h
    obtain ⟨before', b', after', rfl, hbefore, hafter, hb'⟩ := ih hrest
    exact ⟨b :: before', b', after', rfl, .cons hb hbefore, hafter, hb'⟩

theorem exists_of_mem_of_forall₂ {R : α → β → Prop} {as : List α} {bs : List β} {b : β}
    (h : List.Forall₂ R as bs) (hb : b ∈ bs) : ∃ a ∈ as, R a b := by
  obtain ⟨before, after, rfl⟩ := List.append_of_mem hb
  obtain ⟨before', a, after', rfl, -, -, ha⟩ := exists_eq_append_of_forall₂ h.flip
  exact ⟨a, List.mem_append_right before' List.mem_cons_self, ha⟩

/-- Lists that are related to one list are related to each other. -/
theorem forall₂_of_common {γ : Type} {R : α → β → Prop} {R' : α → γ → Prop} {as : List α}
    {bs : List β} {cs : List γ} (h : List.Forall₂ R as bs) (h' : List.Forall₂ R' as cs) :
    List.Forall₂ (fun b c => ∃ a, R a b ∧ R' a c) bs cs := by
  induction h generalizing cs with
  | nil =>
    cases h'
    exact .nil
  | cons hb _ ih =>
    cases h' with
    | cons hc hrest => exact .cons ⟨_, hb, hc⟩ (ih hrest)

/-- What is alike for related elements is the same list for related lists. -/
theorem map_eq_map_of_forall₂ {R : α → β → Prop} {f : α → κ} {g : β → κ} {as : List α}
    {bs : List β} (h : List.Forall₂ R as bs) (hR : ∀ a, ∀ b ∈ bs, R a b → g b = f a) :
    bs.map g = as.map f := by
  induction h with
  | nil => rfl
  | @cons a b as bs hab _ ih =>
    have hrest := ih fun a' b' hb' => hR a' b' (List.mem_cons_of_mem b hb')
    rw [List.map_cons, List.map_cons, hR a b List.mem_cons_self hab, hrest]

theorem forall₂_imp_of_mem {R R' : α → β → Prop} {as : List α} {bs : List β}
    (h : List.Forall₂ R as bs) (hR : ∀ a ∈ as, ∀ b ∈ bs, R a b → R' a b) :
    List.Forall₂ R' as bs := by
  obtain ⟨hlength, hpairs⟩ := List.forall₂_iff_zip.1 h
  refine List.forall₂_iff_zip.2 ⟨hlength, fun {a b} hab => ?_⟩
  obtain ⟨ha, hb⟩ := List.of_mem_zip hab
  exact hR a ha b hb (hpairs hab)

theorem forall_mem_iff_of_forall₂ {R : α → β → Prop} {q : α → Prop} {q' : β → Prop} {as : List α}
    {bs : List β} (h : List.Forall₂ R as bs) (hR : ∀ a b, R a b → (q a ↔ q' b)) :
    (∀ a ∈ as, q a) ↔ ∀ b ∈ bs, q' b := by
  induction h with
  | nil => exact iff_of_true nofun nofun
  | @cons a b as bs hab _ ih => rw [List.forall_mem_cons, List.forall_mem_cons, ih, hR a b hab]

namespace VarList

variable {vs : List Var} {v : Var}

theorem exists_add?_eq_some {l : VarList} (h : v.name ∉ l.names) :
    ∃ longer, l.add? v = some longer ∧ longer.vars = l.vars ++ [v] := by
  unfold add?
  rw [dif_neg h]
  exact ⟨_, rfl, rfl⟩

theorem ofList_append (vs vs' : List Var) :
    ofList (vs ++ vs') = (ofList vs).bind fun l =>
      vs'.foldlM (fun l v =>
        match l.add? v with
        | some longer => .ok longer
        | none => .error (.duplicateName v.name v.location)) l :=
  List.foldlM_append

theorem exists_ofList_eq_ok (h : (vs.map Var.name).Nodup) :
    ∃ l, ofList vs = .ok l ∧ l.vars = vs := by
  induction vs using List.reverseRecOn with
  | nil => exact ⟨empty, rfl, rfl⟩
  | append_singleton vs v ih =>
    rw [List.map_append, List.map_singleton] at h
    obtain ⟨hnodup, -, hdisjoint⟩ := List.nodup_append.1 h
    obtain ⟨l, hl, rfl⟩ := ih hnodup
    have hnew : v.name ∉ l.names := by
      intro hmem
      exact hdisjoint _ hmem _ (List.mem_singleton_self _) rfl
    obtain ⟨longer, hadd, hvars⟩ := exists_add?_eq_some hnew
    refine ⟨longer, ?_, hvars⟩
    rw [ofList_append, hl, Except.bind, List.foldlM_cons, hadd]
    rfl

theorem ofList_of_firstRepeat (h : FirstRepeat Var.name vs v) :
    ofList vs = .error (.duplicateName v.name v.location) := by
  obtain ⟨before, after, rfl, hnodup, hmem⟩ := h
  obtain ⟨l, hl, rfl⟩ := exists_ofList_eq_ok hnodup
  have hadd : l.add? v = none := by
    rw [add?_eq_none_iff, contains]
    exact decide_eq_true hmem
  rw [ofList_append, hl, Except.bind, List.foldlM_cons, hadd]
  rfl

end VarList
end Idl
