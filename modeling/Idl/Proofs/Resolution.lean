import Idl.Proofs.Walk
import Idl.Shape

/-!
# Resolution follows walks

In a scope a reference leads to its target, and to the binding of its name as long as it has no
target. Evaluating a type makes the walk of that: its verdict is that of the end, and what it
changes are the targets of the references on the way. The bounds by which evaluation and shapes are
computed are never what stops a walk.
-/

namespace Idl

/-- What evaluating a type says that ends in the core. -/
def Ty.Core.evaluate : Ty.Core → Verdict
  | leaf l => l.evaluate
  | ref r => .error r.unresolved

/-- What validating a type says that ends in the core. -/
def Ty.Core.validate : Ty.Core → Verdict
  | leaf l => l.validate
  | ref r => .error r.unresolved

namespace Shape

def ofCore : Ty.Core → Shape
  | .leaf l => .leaf l
  | .ref r => .pending r

/-- The shape inside `depth` vectors. -/
def vectors : Nat → Shape → Shape
  | 0, e => e
  | depth + 1, e => vec (vectors depth e)

theorem validate_vectors (c : Ty.Core) (depth : Nat) :
    ((ofCore c).vectors depth).validate = c.validate := by
  induction depth with
  | zero => cases c <;> rfl
  | succ depth ih => exact ih

end Shape

namespace Scope

open Ty (Walk Core)

variable {s s' s'' : Scope} {t : Ty} {path : List Ref} {depth : Nat} {c : Core}

/-- Where a reference leads when it is evaluated. -/
def next? (s : Scope) (r : Ref) : Option Ty := (s.target? r).or (s.lookup? r.name)

theorem next?_of_target? {r : Ref} (h : s.target? r = some t) : s.next? r = some t := by
  rw [next?, h, Option.some_or]

theorem mem_of_next? {r : Ref} (h : s.next? r = some t) :
    t ∈ s.bindings.map Prod.snd ++ s.targets.map Prod.snd := by
  rcases Option.or_eq_some_iff.1 h with htarget | ⟨-, hbinding⟩
  · exact List.mem_append_right _ (List.mem_map_of_mem (mem_of_lookup_eq_some htarget))
  · exact List.mem_append_left _ (List.mem_map_of_mem (mem_of_lookup_eq_some hbinding))

theorem mem_keys_of_target? {r : Ref} (h : s.target? r = some t) : r ∈ s.targets.map Prod.fst :=
  List.mem_map_of_mem (mem_of_lookup_eq_some h)

/-- No walk is longer than the bound of an evaluation: after the first, its references are cores of
bindings and targets, and none comes twice. -/
theorem length_le_hops (hw : Walk s.next? t path depth c) : path.length ≤ s.hops := by
  let cores := (s.bindings.map Prod.snd ++ s.targets.map Prod.snd).filterMap fun u => u.core.ref?
  have hsub : path ⊆ t.core.ref?.toList ++ cores := by
    intro r hr
    rw [List.mem_append]
    rcases hw.eq_core_or_exists hr with hcore | ⟨r', u, hu, hcore⟩
    · exact .inl (by rw [hcore]; exact List.mem_singleton_self r)
    · exact .inr (List.mem_filterMap.2 ⟨u, mem_of_next? hu, by rw [hcore]; rfl⟩)
  have hlen := hw.nodup.length_le_of_subset hsub
  have hfirst : t.core.ref?.toList.length ≤ 1 := by cases t.core.ref? <;> simp
  have hcores : cores.length ≤ s.bindings.length + s.targets.length := by
    refine Nat.le_trans (List.length_filterMap_le _ _) (Nat.le_of_eq ?_)
    rw [List.length_append, List.length_map, List.length_map]
  rw [List.length_append] at hlen
  unfold hops
  omega

/-- The scope `s'` is `s` with the references of `path` resolved as they lead in `s`. -/
structure ResolvedAlong (s : Scope) (path : List Ref) (s' : Scope) : Prop where
  lookup?_eq : ∀ name, s'.lookup? name = s.lookup? name
  target?_eq : ∀ r, s'.target? r = if r ∈ path then s.next? r else s.target? r

namespace ResolvedAlong

theorem nil (s : Scope) : ResolvedAlong s [] s := ⟨fun _ => rfl, fun _ => by simp⟩

/-- Resolving a reference changes nothing about where references lead. -/
theorem next?_eq (h : ResolvedAlong s path s') (r : Ref) : s'.next? r = s.next? r := by
  by_cases hr : r ∈ path
  · rw [next?, h.target?_eq, if_pos hr, h.lookup?_eq]
    unfold next?
    cases s.target? r <;> simp
  · rw [next?, h.target?_eq, if_neg hr, h.lookup?_eq, next?]

theorem append {path' : List Ref} (h : ResolvedAlong s path s') (h' : ResolvedAlong s' path' s'') :
    ResolvedAlong s (path ++ path') s'' := by
  refine ⟨fun name => (h'.lookup?_eq name).trans (h.lookup?_eq name), fun r => ?_⟩
  rw [h'.target?_eq, h.next?_eq, h.target?_eq]
  by_cases hr' : r ∈ path'
  · simp [hr']
  · by_cases hr : r ∈ path <;> simp [hr, hr']

end ResolvedAlong

theorem fst_resolve (s : Scope) (r : Ref) : (s.resolve r).1 = s.next? r := by
  unfold resolve next?
  cases s.target? r with
  | some t => rfl
  | none => cases s.lookup? r.name <;> rfl

theorem resolvedAlong_resolve (s : Scope) (r : Ref) : ResolvedAlong s [r] (s.resolve r).2 := by
  unfold resolve
  cases htarget : s.target? r with
  | some t =>
    refine ⟨fun _ => rfl, fun r' => ?_⟩
    by_cases h : r' = r
    · rw [if_pos (by simp [h]), h, htarget, next?_of_target? htarget]
    · rw [if_neg (by simp [h])]
  | none =>
    cases hbinding : s.lookup? r.name with
    | none =>
      refine ⟨fun _ => rfl, fun r' => ?_⟩
      by_cases h : r' = r <;> simp [h, htarget, hbinding, next?]
    | some t =>
      refine ⟨fun _ => rfl, fun r' => ?_⟩
      by_cases h : r' = r <;> simp [h, htarget, hbinding, next?]

/-- Evaluation that may follow `n` references. -/
def follow (n : Nat) (s : Scope) (t : Ty) : Verdict × Scope :=
  match t.core with
  | .leaf l => (l.evaluate, s)
  | .ref r => settle n s r

theorem settle_succ (n : Nat) (s : Scope) (r : Ref) :
    settle (n + 1) s r =
      match s.next? r with
      | none => (.error r.unresolved, (s.resolve r).2)
      | some t => follow n (s.resolve r).2 t := by
  rw [settle, ← fst_resolve]
  obtain ⟨next, after⟩ := s.resolve r
  cases next <;> rfl

theorem follow_of_walk {f : Ref → Option Ty} (hw : Walk f t path depth c) {n : Nat}
    (hnext : ∀ r, s.next? r = f r) (hn : path.length ≤ n) :
    (follow n s t).1 = c.evaluate ∧ ResolvedAlong s path (follow n s t).2 := by
  induction hw generalizing s n with
  | leaf l => exact ⟨rfl, .nil s⟩
  | vec _ ih => exact ih hnext hn
  | @hop r u rest _ _ hr _ ih =>
    obtain ⟨n, rfl⟩ := Nat.exists_eq_add_one.2 (Nat.lt_of_lt_of_le (Nat.succ_pos _) hn)
    have hstep := resolvedAlong_resolve s r
    have hrest := ih (s := (s.resolve r).2) (fun r' => (hstep.next?_eq r').trans (hnext r'))
      (Nat.le_of_succ_le_succ hn)
    have heq : follow (n + 1) s (.ref r) = follow n (s.resolve r).2 u := by
      change settle (n + 1) s r = _
      rw [settle_succ, hnext r, hr]
    rw [heq]
    exact ⟨hrest.1, hstep.append hrest.2⟩
  | @stop r hr =>
    obtain ⟨n, rfl⟩ := Nat.exists_eq_add_one.2 (Nat.lt_of_lt_of_le (Nat.succ_pos _) hn)
    have heq : follow (n + 1) s (.ref r) = (.error r.unresolved, (s.resolve r).2) := by
      change settle (n + 1) s r = _
      rw [settle_succ, hnext r, hr]
    rw [heq]
    exact ⟨rfl, resolvedAlong_resolve s r⟩

/-- Once it may follow the references of the walk, evaluation does not depend on the bound. -/
theorem follow_eq_of_walk {f : Ref → Option Ty} (hw : Walk f t path depth c) {n n' : Nat}
    (hnext : ∀ r, s.next? r = f r) (hn : path.length ≤ n) (hn' : path.length ≤ n') :
    follow n s t = follow n' s t := by
  induction hw generalizing s n n' with
  | leaf l => rfl
  | vec _ ih => exact ih hnext hn hn'
  | @hop r u rest _ _ hr _ ih =>
    obtain ⟨n, rfl⟩ := Nat.exists_eq_add_one.2 (Nat.lt_of_lt_of_le (Nat.succ_pos _) hn)
    obtain ⟨n', rfl⟩ := Nat.exists_eq_add_one.2 (Nat.lt_of_lt_of_le (Nat.succ_pos _) hn')
    change settle (n + 1) s r = settle (n' + 1) s r
    rw [settle_succ, settle_succ, hnext r, hr]
    exact ih (fun r' => ((resolvedAlong_resolve s r).next?_eq r').trans (hnext r'))
      (Nat.le_of_succ_le_succ hn) (Nat.le_of_succ_le_succ hn')
  | @stop r hr =>
    obtain ⟨n, rfl⟩ := Nat.exists_eq_add_one.2 (Nat.lt_of_lt_of_le (Nat.succ_pos _) hn)
    obtain ⟨n', rfl⟩ := Nat.exists_eq_add_one.2 (Nat.lt_of_lt_of_le (Nat.succ_pos _) hn')
    change settle (n + 1) s r = settle (n' + 1) s r
    rw [settle_succ, settle_succ, hnext r, hr]

/-- Evaluation says what the end of the walk says, and resolves the references on the way. -/
theorem evaluate_of_walk (hw : Walk s.next? t path depth c) :
    (s.evaluate t).1 = c.evaluate ∧ ResolvedAlong s path (s.evaluate t).2 :=
  follow_of_walk hw (fun _ => rfl) (length_le_hops hw)

/-- Evaluation succeeds only on a walk to a leaf, however far it may go. -/
theorem exists_walk_of_follow_eq_ok {n : Nat} (h : (follow n s t).1 = .ok ()) :
    ∃ path depth l, Walk s.next? t path depth (.leaf l) := by
  induction n generalizing s t with
  | zero =>
    cases ht : t.core with
    | leaf l => exact ⟨_, _, l, .of_core (by rw [ht]; exact .leaf l)⟩
    | ref r => simp [follow, ht, settle] at h
  | succ n ih =>
    cases ht : t.core with
    | leaf l => exact ⟨_, _, l, .of_core (by rw [ht]; exact .leaf l)⟩
    | ref r =>
      simp only [follow, ht, settle_succ] at h
      cases hr : s.next? r with
      | none => rw [hr] at h; cases h
      | some u =>
        rw [hr] at h
        obtain ⟨path, depth, l, hw⟩ := ih h
        have hw' := hw.congr fun r' _ => ((resolvedAlong_resolve s r).next?_eq r').symm
        exact ⟨_, _, l, .of_core (by rw [ht]; exact .hop hr hw')⟩

theorem evaluate_eq_ok_iff : (s.evaluate t).1 = .ok () ↔
    ∃ path depth l, Walk s.next? t path depth (.leaf l) ∧ l.evaluate = .ok () := by
  constructor
  · intro h
    obtain ⟨path, depth, l, hw⟩ := exists_walk_of_follow_eq_ok (n := s.hops) h
    exact ⟨path, depth, l, hw, (evaluate_of_walk hw).1.symm.trans h⟩
  · rintro ⟨path, depth, l, hw, hl⟩
    exact (evaluate_of_walk hw).1.trans hl

theorem shapeWith_of_walk {n : Nat} (hw : Walk s.target? t path depth c)
    (hn : path.countP s.isResolved ≤ n) :
    t.shapeWith (s.refShape n) = (Shape.ofCore c).vectors depth := by
  induction hw generalizing n with
  | leaf l => rfl
  | vec _ ih => rw [Ty.shapeWith, ih hn, Shape.vectors]
  | @hop r u rest _ _ hr _ ih =>
    have hresolved : s.isResolved r = true := by rw [isResolved, hr]; rfl
    rw [List.countP_cons_of_pos hresolved] at hn
    obtain ⟨n, rfl⟩ := Nat.exists_eq_add_one.2 (Nat.lt_of_lt_of_le (Nat.succ_pos _) hn)
    rw [Ty.shapeWith, refShape, hr]
    exact ih (Nat.le_of_succ_le_succ hn)
  | @stop r hr =>
    rw [Ty.shapeWith]
    cases n with
    | zero => rfl
    | succ n => rw [refShape, hr]; rfl

/-- The shape of a type is the end of its walk through targets, inside the vectors on the way. -/
theorem shape_of_walk (hw : Walk s.target? t path depth c) :
    s.shape t = (Shape.ofCore c).vectors depth := by
  have hsub : path.filter s.isResolved ⊆ s.targets.map Prod.fst := by
    intro r hr
    obtain ⟨u, hu⟩ := Option.isSome_iff_exists.1 (List.mem_filter.1 hr).2
    exact mem_keys_of_target? hu
  have hlen := List.Nodup.length_le_of_subset (hw.nodup.filter _) hsub
  rw [← List.countP_eq_length_filter, List.length_map] at hlen
  exact shapeWith_of_walk hw hlen

end Scope
end Idl
