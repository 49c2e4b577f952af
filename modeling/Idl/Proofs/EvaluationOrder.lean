import Idl.Proofs.Circular

/-!
# The order of evaluation

Types that share references change the scope for one another when they are evaluated. What a
reference leads to is the same all along, so each type makes the walk that it would have made at
first. A sequence of evaluations resolves the references on the walks of its types and nothing
else: neither the verdicts nor the scope at the end depend on how it is arranged.
-/

namespace Idl.Scope

open Ty (Walk Core)

variable {s s' : Scope} {t : Ty} {path : List Ref} {depth : Nat} {c : Core}

/-- Evaluates types one after the other, whether or not an evaluation fails. -/
def evaluateEach (s : Scope) : List Ty → List Verdict × Scope
  | [] => ([], s)
  | t :: rest =>
    let (verdict, s) := s.evaluate t
    let (verdicts, s) := s.evaluateEach rest
    (verdict :: verdicts, s)

theorem evaluateEach_cons (s : Scope) (t : Ty) (rest : List Ty) :
    s.evaluateEach (t :: rest) =
      ((s.evaluate t).1 :: ((s.evaluate t).2.evaluateEach rest).1,
        ((s.evaluate t).2.evaluateEach rest).2) := rfl

/-- The walk from the type meets the reference. -/
def Meets (s : Scope) (t : Ty) (r : Ref) : Prop :=
  ∃ path depth c, Walk s.next? t path depth c ∧ r ∈ path

theorem meets_iff_of_walk (hw : Walk s.next? t path depth c) (r : Ref) :
    s.Meets t r ↔ r ∈ path := by
  constructor
  · rintro ⟨path', depth', c', hw', hr⟩
    rwa [(hw.unique hw').1]
  · intro hr
    exact ⟨path, depth, c, hw, hr⟩

namespace ResolvedAlong

theorem walk (h : ResolvedAlong s path s') {path' : List Ref} (hw : Walk s.next? t path' depth c) :
    Walk s'.next? t path' depth c :=
  hw.congr fun r _ => h.next?_eq r

/-- A type makes the same walk, and gets the same verdict, before and after. -/
theorem evaluate_eq (h : ResolvedAlong s path s') {path' : List Ref}
    (hw : Walk s.next? t path' depth c) : (s'.evaluate t).1 = (s.evaluate t).1 := by
  rw [(evaluate_of_walk (h.walk hw)).1, (evaluate_of_walk hw).1]

theorem meets_iff (h : ResolvedAlong s path s') (t : Ty) (r : Ref) :
    s'.Meets t r ↔ s.Meets t r := by
  have hnext : s'.next? = s.next? := funext h.next?_eq
  unfold Meets
  rw [hnext]

/-- Once its walk has been resolved, a type has the shape of the end of the walk. -/
theorem shape_eq (h : ResolvedAlong s path s') {path' : List Ref}
    (hw : Walk s.next? t path' depth c) (hsub : path' ⊆ path) :
    s'.shape t = (Shape.ofCore c).vectors depth := by
  apply shape_of_walk
  refine hw.congr fun r hr => ?_
  rw [h.target?_eq, if_pos (hsub hr)]

/-- Once its walk has been resolved, a type is validated as its end is. -/
theorem validate_eq (h : ResolvedAlong s path s') {path' : List Ref}
    (hw : Walk s.next? t path' depth c) (hsub : path' ⊆ path) : s'.validate t = c.validate := by
  rw [validate, h.shape_eq hw hsub, Shape.validate_vectors]

end ResolvedAlong

/-- What a sequence of evaluations does: each type gets the verdict that it would get at once, and
the references on the walks of the types are resolved. -/
theorem evaluateEach_of_walks {calls : List Ty}
    (h : ∀ t ∈ calls, ∃ path depth c, Walk s.next? t path depth c) :
    (s.evaluateEach calls).1 = calls.map (fun t => (s.evaluate t).1) ∧
      ∃ path, ResolvedAlong s path (s.evaluateEach calls).2 ∧
        ∀ r, r ∈ path ↔ ∃ t ∈ calls, s.Meets t r := by
  induction calls generalizing s with
  | nil => exact ⟨rfl, [], .nil s, fun r => by simp⟩
  | cons t rest ih =>
    obtain ⟨path, depth, c, hw⟩ := h t List.mem_cons_self
    have hfirst := (evaluate_of_walk hw).2
    -- What `t` has resolved may lie on the walks of the others, but leads where it led before.
    have hrest : ∀ u ∈ rest, ∃ p n c', Walk (s.evaluate t).2.next? u p n c' := by
      intro u hu
      obtain ⟨p, n, c', hwu⟩ := h u (List.mem_cons_of_mem t hu)
      exact ⟨p, n, c', hfirst.walk hwu⟩
    obtain ⟨hverdicts, path', hpath', hmem⟩ := ih hrest
    rw [evaluateEach_cons]
    refine ⟨?_, path ++ path', hfirst.append hpath', fun r => ?_⟩
    · have hsame : ∀ u ∈ rest, ((s.evaluate t).2.evaluate u).1 = (s.evaluate u).1 := by
        intro u hu
        obtain ⟨p, n, c', hwu⟩ := h u (List.mem_cons_of_mem t hu)
        exact hfirst.evaluate_eq hwu
      rw [hverdicts, List.map_congr_left hsame, List.map_cons]
    · have hhead : s.Meets t r ↔ r ∈ path := meets_iff_of_walk hw r
      simp only [List.mem_append, hmem, hfirst.meets_iff, List.mem_cons, or_and_right, exists_or,
        exists_eq_left, hhead]

/-- A reference without a target goes where its name is bound to go. -/
theorem next?_of_target?_eq_none {r : Ref} (htarget : s.target? r = none) :
    s.next? r = s.lookup? r.name := by
  rw [next?, htarget, Option.none_or]

/-- References of one name without targets go the same way after the first step. -/
theorem exists_walk_of_same_name {r r' : Ref} (hname : r'.name = r.name)
    (htarget : s.target? r = none) (htarget' : s.target? r' = none)
    (hbound : s.lookup? r.name ≠ none) (hw : Walk s.next? (.ref r) path depth c) :
    ∃ path', Walk s.next? (.ref r') path' depth c := by
  have hnext := next?_of_target?_eq_none htarget
  have hnext' := next?_of_target?_eq_none htarget'
  rw [hname] at hnext'
  cases hw with
  | hop hr hw => exact ⟨_, .hop (hnext'.trans (hnext.symm.trans hr)) hw⟩
  | stop hr => exact absurd (hnext.symm.trans hr) hbound

theorem evaluate_of_lookup?_eq_none {r : Ref} (htarget : s.target? r = none)
    (hbound : s.lookup? r.name = none) : (s.evaluate (.ref r)).1 = .error r.unresolved := by
  have hw : Walk s.next? (.ref r) [r] 0 (.ref r) :=
    .stop ((next?_of_target?_eq_none htarget).trans hbound)
  exact (evaluate_of_walk hw).1

/-- Until it is resolved, a reference makes a type evaluate as its name is bound. -/
theorem evaluate_eq_ok_iff_of_core {r : Ref} (hcore : t.core = .ref r)
    (htarget : s.target? r = none) : (s.evaluate t).1 = .ok () ↔
      ∃ u, s.lookup? r.name = some u ∧ (s.evaluate u).1 = .ok () := by
  simp only [evaluate_eq_ok_iff]
  constructor
  · rintro ⟨path, depth, l, hw, hl⟩
    obtain ⟨depth', hw⟩ := exists_walk_core hw
    rw [hcore] at hw
    cases hw with
    | hop hr hw => exact ⟨_, (next?_of_target?_eq_none htarget).symm.trans hr, _, _, l, hw, hl⟩
  · rintro ⟨u, hu, path, depth, l, hw, hl⟩
    have hw' : Walk s.next? t.core.ty (r :: path) depth (.leaf l) := by
      rw [hcore]
      exact .hop ((next?_of_target?_eq_none htarget).trans hu) hw
    exact ⟨_, _, l, .of_core hw', hl⟩

/-- Two sequences that evaluate the same types, in whatever order and however often, get the same
verdict for each type at each place and end with the same targets. To evaluate a type once more
changes nothing. References of one name that have no target yet fare alike, whether they were made
before the name was bound or after. -/
theorem evaluateEach_congr (s : Scope) (calls calls' : List Ty)
    (hmem : ∀ t, t ∈ calls ↔ t ∈ calls') (hcircular : ∀ t ∈ calls, ¬ s.Circular t) :
    let after := s.evaluateEach calls
    let after' := s.evaluateEach calls'
    after.1 = calls.map (fun t => (s.evaluate t).1) ∧
      after'.1 = calls'.map (fun t => (s.evaluate t).1) ∧
      (∀ r, after'.2.target? r = after.2.target? r) ∧
      (∀ name, after.2.lookup? name = s.lookup? name ∧ after'.2.lookup? name = s.lookup? name) ∧
      (∀ t ∈ calls, (after.2.evaluate t).1 = (s.evaluate t).1 ∧
        ∀ r, (after.2.evaluate t).2.target? r = after.2.target? r) ∧
      ∀ r r', .ref r ∈ calls → .ref r' ∈ calls → r'.name = r.name →
        s.target? r = none → s.target? r' = none →
        if (s.lookup? r.name).isSome then
          (s.evaluate (.ref r')).1 = (s.evaluate (.ref r)).1 ∧
            after.2.shape (.ref r') = after.2.shape (.ref r)
        else
          (s.evaluate (.ref r)).1 = .error (.unresolvedType r.name r.location) ∧
            (s.evaluate (.ref r')).1 = .error (.unresolvedType r.name r'.location) := by
  intro after after'
  have hwalks : ∀ t ∈ calls, ∃ path depth c, Walk s.next? t path depth c :=
    fun t ht => exists_walk_iff_not_circular.2 (hcircular t ht)
  have hwalks' : ∀ t ∈ calls', ∃ path depth c, Walk s.next? t path depth c :=
    fun t ht => hwalks t ((hmem t).2 ht)
  obtain ⟨hverdicts, path, hpath, hmeets⟩ := evaluateEach_of_walks hwalks
  obtain ⟨hverdicts', path', hpath', hmeets'⟩ := evaluateEach_of_walks hwalks'
  have hsame : ∀ r, r ∈ path' ↔ r ∈ path := by
    intro r
    rw [hmeets, hmeets']
    simp only [hmem]
  have hmet : ∀ {t p n c}, t ∈ calls → Walk s.next? t p n c → p ⊆ path :=
    fun ht hw r hr => (hmeets r).2 ⟨_, ht, _, _, _, hw, hr⟩
  refine ⟨hverdicts, hverdicts', fun r => ?_,
    fun name => ⟨hpath.lookup?_eq name, hpath'.lookup?_eq name⟩, fun t ht => ?_, ?_⟩
  · rw [hpath.target?_eq, hpath'.target?_eq]
    simp only [hsame]
  · obtain ⟨p, n, c, hw⟩ := hwalks t ht
    refine ⟨hpath.evaluate_eq hw, fun r => ?_⟩
    have hagain := (evaluate_of_walk (hpath.walk hw)).2
    rw [hagain.target?_eq, hpath.next?_eq, hpath.target?_eq]
    by_cases hr : r ∈ p
    · rw [if_pos hr, if_pos (hmet ht hw hr)]
    · rw [if_neg hr]
  · intro r r' hr hr' hname htarget htarget'
    by_cases hbound : s.lookup? r.name = none
    · have hbound' : s.lookup? r'.name = none := by rw [hname, hbound]
      rw [if_neg (by simp [hbound]), evaluate_of_lookup?_eq_none htarget hbound,
        evaluate_of_lookup?_eq_none htarget' hbound', Ref.unresolved, Ref.unresolved, hname]
      exact ⟨rfl, rfl⟩
    · rw [if_pos (Option.isSome_iff_ne_none.2 hbound)]
      obtain ⟨p, n, c, hw⟩ := hwalks _ hr
      obtain ⟨p', hw'⟩ := exists_walk_of_same_name hname htarget htarget' hbound hw
      refine ⟨?_, ?_⟩
      · rw [(evaluate_of_walk hw).1, (evaluate_of_walk hw').1]
      · rw [hpath.shape_eq hw (hmet hr hw), hpath.shape_eq hw' (hmet hr' hw')]

/-- A chain that fails halfway, a reference on it, and one that was resolved before its name got
another binding. -/
theorem evaluateEach_broken_chain :
    let old : Ref := ⟨0, "Status", .empty⟩
    let s := (((Scope.initial.bind "Status" (.scalar .uint32)).evaluate (.ref old)).2.bind "Status"
      (.ref ⟨1, "Missing", .empty⟩)).bind "Alias" (.vec (.ref ⟨2, "Status", .empty⟩))
    let chain : Ty := .ref ⟨3, "Alias", .empty⟩
    let new : Ty := .vec (.ref ⟨2, "Status", .empty⟩)
    let missing : Verdict := .error (.unresolvedType "Missing" .empty)
    (s.evaluateEach [chain, .ref old, new]).1 = [missing, .ok (), missing] ∧
      (s.evaluateEach [new, new, .ref old, chain]).1 = [missing, missing, .ok (), missing] ∧
      ∀ r, (s.evaluateEach [new, new, .ref old, chain]).2.target? r =
        (s.evaluateEach [chain, .ref old, new]).2.target? r := by
  intro old s chain new missing
  have hwalks : ∀ t ∈ [chain, .ref old, new], ¬ s.Circular t := by
    intro t ht
    apply exists_walk_iff_not_circular.1
    simp only [List.mem_cons, List.not_mem_nil, or_false] at ht
    rcases ht with rfl | rfl | rfl
    · exact ⟨_, _, _, .hop rfl (.vec (.hop rfl (.stop rfl)))⟩
    · exact ⟨_, _, _, .hop rfl (.leaf _)⟩
    · exact ⟨_, _, _, .vec (.hop rfl (.stop rfl))⟩
  have hmem : ∀ t, t ∈ [chain, .ref old, new] ↔ t ∈ [new, new, .ref old, chain] := by
    intro t
    simp only [List.mem_cons, List.not_mem_nil, or_false]
    grind
  obtain ⟨hverdicts, hverdicts', htargets, -⟩ := evaluateEach_congr s _ _ hmem hwalks
  exact ⟨hverdicts, hverdicts', htargets⟩

end Idl.Scope
