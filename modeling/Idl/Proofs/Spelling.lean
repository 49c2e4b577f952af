import Idl.Proofs.Growth
import Mathlib.Logic.ExistsUnique

/-!
# How resolved types are spelled

What is resolved ends in one leaf through a number of vectors, and these two say how it is spelled
by either backend. References leave no trace: an alias is spelled as its target. The managed
backend boxes what stands in a container, at every depth.
-/

namespace Idl

/-- The text `k` times. -/
def times : Nat → String → String
  | 0, _ => ""
  | k + 1, s => s ++ times k s

theorem times_succ_eq_append (k : Nat) (s : String) : times (k + 1) s = times k s ++ s := by
  induction k with
  | zero => simp [times]
  | succ k ih =>
    calc
      times (k + 2) s = s ++ (times k s ++ s) := by rw [← ih, times]
      _ = times (k + 1) s ++ s := by rw [← String.append_assoc, times]

/-- Putting a bracket around what stands in `k` brackets. -/
theorem append_times_append (k : Nat) (opening inner closing : String) :
    opening ++ (times k opening ++ inner ++ times k closing) ++ closing =
      times (k + 1) opening ++ inner ++ times (k + 1) closing := by
  rw [times, times_succ_eq_append]
  simp only [String.append_assoc]

/-- A text without the character stands on one side of it. -/
theorem infix_append_cons {w x y : List Char} {c : Char} (hc : c ∉ w) (h : w <:+: x ++ c :: y) :
    w <:+: x ∨ w <:+: y := by
  obtain ⟨a, b, heq⟩ := h
  rcases List.append_eq_append_iff.1 heq with ⟨m, rfl, -⟩ | ⟨m, hleft, hright⟩
  · exact .inl ⟨a, m, rfl⟩
  rcases List.append_eq_append_iff.1 hleft with ⟨m', rfl, rfl⟩ | ⟨m', rfl, rfl⟩
  · cases m with
    | nil => exact .inl ⟨a, [], by simp⟩
    | cons d m =>
      obtain rfl := (List.cons.inj hright).1
      exact absurd (List.mem_append_right m' List.mem_cons_self) hc
  · cases m' with
    | nil =>
      cases w with
      | nil => exact .inl ⟨[], x, rfl⟩
      | cons d w =>
        obtain rfl := (List.cons.inj hright).1
        exact absurd List.mem_cons_self hc
    | cons d m' => exact .inr ⟨m', b, by simpa using (List.cons.inj hright).2.symm⟩

namespace Shape

variable (l : Leaf)

theorem nativeResult_vectors (qualified : Bool) (depth : Nat) :
    ((leaf l).vectors depth).nativeResult qualified =
      times depth (qualifier qualified ++ "hidl_vec<") ++ l.nativeResult qualified ++
        times depth ">" := by
  induction depth with
  | zero =>
    change l.nativeResult qualified = "" ++ l.nativeResult qualified ++ ""
    simp
  | succ depth ih => rw [vectors, nativeResult, ih, append_times_append]

theorem boxed_vectors (depth : Nat) :
    ((leaf l).vectors depth).boxed =
      times depth "java.util.ArrayList<" ++ l.boxed ++ times depth ">" := by
  induction depth with
  | zero =>
    change l.boxed = "" ++ l.boxed ++ ""
    simp
  | succ depth ih =>
    change "java.util.ArrayList<" ++ ((leaf l).vectors depth).boxed ++ ">" = _
    rw [ih, append_times_append]

theorem hasManagedForm_vectors (depth : Nat) :
    ((leaf l).vectors depth).hasManagedForm = l.hasManagedForm := by
  induction depth with
  | zero => rfl
  | succ depth ih => exact ih

theorem not_managed_infix_leaf (k : Scalar) (hl : ∀ f, l ≠ .foreign f) :
    ¬ k.managed.toList <:+: l.boxed.toList := by
  have hboxed : ∀ k ∈ Scalar.all, ∀ text ∈ "String" :: "android.os.NativeHandle" ::
      Scalar.all.map Scalar.boxed, ¬ k.managed.toList <:+: text.toList := by decide +kernel
  refine hboxed k (Scalar.mem_all k) _ ?_
  cases l with
  | scalar k' => exact .tail _ (.tail _ (List.mem_map.2 ⟨k', Scalar.mem_all k', rfl⟩))
  | string => exact .head _
  | handle => exact .tail _ (.head _)
  | foreign f => exact absurd rfl (hl f)

/-- A text without angle brackets stands in a container only if it stands in its element. -/
theorem infix_boxed_vectors_iff {w : List Char} (hopening : '<' ∉ w) (hclosing : '>' ∉ w)
    (hname : ¬ w <:+: "java.util.ArrayList".toList) (depth : Nat) :
    w <:+: ((leaf l).vectors depth).boxed.toList ↔ w <:+: l.boxed.toList := by
  induction depth with
  | zero => exact Iff.rfl
  | succ depth ih =>
    have hcut : ((leaf l).vectors (depth + 1)).boxed.toList = "java.util.ArrayList".toList ++
        '<' :: (((leaf l).vectors depth).boxed.toList ++ '>' :: []) := by
      change ("java.util.ArrayList<" ++ ((leaf l).vectors depth).boxed ++ ">").toList = _
      simp
    rw [hcut]
    constructor
    · intro h
      rcases infix_append_cons hopening h with h | h
      · exact absurd h hname
      rcases infix_append_cons hclosing h with h | h
      · exact ih.1 h
      · rw [List.infix_nil.1 h] at hname
        exact absurd List.nil_infix hname
    · intro h
      refine (ih.2 h).trans ⟨"java.util.ArrayList<".toList, ['>'], ?_⟩
      simp

/-- No primitive is named where the managed backend boxes. -/
theorem not_managed_infix_boxed (k : Scalar) (hl : ∀ f, l ≠ .foreign f) (depth : Nat) :
    ¬ k.managed.toList <:+: ((leaf l).vectors depth).boxed.toList := by
  have hcontainer : ∀ k ∈ Scalar.all, '<' ∉ k.managed.toList ∧ '>' ∉ k.managed.toList ∧
      ¬ k.managed.toList <:+: "java.util.ArrayList".toList := by
    decide +kernel
  obtain ⟨hopening, hclosing, hname⟩ := hcontainer k (Scalar.mem_all k)
  rw [infix_boxed_vectors_iff l hopening hclosing hname]
  exact not_managed_infix_leaf l k hl

/-- The shape is spelled as the leaf is inside `depth` vectors. -/
structure Spelled (e : Shape) (depth : Nat) (l : Leaf) : Prop where
  nativeResult_eq : ∀ qualified, e.nativeResult qualified =
    times depth (qualifier qualified ++ "hidl_vec<") ++ l.nativeResult qualified ++ times depth ">"
  nativeArgument_eq : ∀ qualified, e.nativeArgument qualified =
    if depth = 0 then l.nativeArgument qualified else "const " ++ e.nativeResult qualified ++ "&"
  managed_eq : e.managed =
    if depth = 0 then l.managed
    else times depth "java.util.ArrayList<" ++ l.boxed ++ times depth ">"
  boxed_eq : e.boxed = if depth = 0 then l.boxed else e.managed
  default_eq : e.default = if depth = 0 then l.default else "null"
  returnable_iff : e.returnable = true ↔ depth = 0 ∧ l.returnable = true
  hasManagedForm_eq : e.hasManagedForm = l.hasManagedForm
  not_primitive : 0 < depth → (∀ f, l ≠ .foreign f) →
    ∀ k : Scalar, ¬ k.managed.toList <:+: e.managed.toList

theorem spelled_vectors (depth : Nat) : ((leaf l).vectors depth).Spelled depth l := by
  refine ⟨fun q => nativeResult_vectors l q depth, ?_, ?_, ?_, ?_, ?_,
    hasManagedForm_vectors l depth, ?_⟩
  · intro q
    cases depth <;> rfl
  · cases depth with
    | zero => rfl
    | succ depth => exact boxed_vectors l (depth + 1)
  · cases depth <;> rfl
  · cases depth <;> rfl
  · cases depth <;> simp [vectors, returnable]
  · intro hdepth hl k
    obtain ⟨depth, rfl⟩ := Nat.exists_eq_succ_of_ne_zero (Nat.ne_of_gt hdepth)
    exact not_managed_infix_boxed l k hl (depth + 1)

end Shape

namespace Scope

variable {s : Scope} {t : Ty}

end Scope
end Idl
