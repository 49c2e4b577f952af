import Idl.Proofs.Growth

/-!
# Analysis binds nothing

Evaluating a type resolves references, each as its name is bound at that moment. So where a
reference leads is the same before and after, and no binding changes: to whatever is analysed next,
the scope is as it was. Validation does not touch the scope at all.
-/

namespace Idl

namespace Scope

variable {s s' s'' : Scope}

/-- From `s` to `s'` every name is bound as before and every reference leads where it led. -/
structure Steady (s s' : Scope) : Prop where
  lookup?_eq : ∀ name, s'.lookup? name = s.lookup? name
  next?_eq : ∀ r, s'.next? r = s.next? r

theorem Steady.refl (s : Scope) : Steady s s := ⟨fun _ => rfl, fun _ => rfl⟩

theorem Steady.trans (h : Steady s s') (h' : Steady s' s'') : Steady s s'' :=
  ⟨fun name => (h'.lookup?_eq name).trans (h.lookup?_eq name),
    fun r => (h'.next?_eq r).trans (h.next?_eq r)⟩

theorem Steady.of_eq (hbindings : s'.bindings = s.bindings) (htargets : s'.targets = s.targets) :
    Steady s s' := by
  have hlookup : ∀ name, s'.lookup? name = s.lookup? name := by
    intro name
    rw [lookup?, hbindings, lookup?]
  refine ⟨hlookup, fun r => ?_⟩
  rw [next?, target?, htargets, hlookup, next?, target?]

theorem ResolvedAlong.steady {path : List Ref} (h : ResolvedAlong s path s') : Steady s s' :=
  ⟨h.lookup?_eq, h.next?_eq⟩

theorem steady_follow (n : Nat) (s : Scope) (t : Ty) : Steady s (follow n s t).2 := by
  induction n generalizing s t with
  | zero =>
    cases ht : t.core <;> simp only [follow, ht] <;> exact .refl s
  | succ n ih =>
    cases ht : t.core with
    | leaf l =>
      simp only [follow, ht]
      exact .refl s
    | ref r =>
      have hstep := (resolvedAlong_resolve s r).steady
      simp only [follow, ht, settle_succ]
      cases s.next? r with
      | none => exact hstep
      | some u => exact hstep.trans (ih (s.resolve r).2 u)

theorem steady_evaluate (s : Scope) (t : Ty) : Steady s (s.evaluate t).2 :=
  steady_follow s.hops s t

theorem steady_visit (s : Scope) (pass : Pass) (n : Node) :
    Steady s (s.visit pass n).scope := by
  cases pass with
  | evaluation =>
    cases n with
    | argument v => exact steady_evaluate s v.type
    | result v => exact steady_evaluate s v.type
    | attached a => exact .refl s
  | validation => exact .refl s

theorem steady_visitAll (s : Scope) (pass : Pass) (nodes : List Node) :
    Steady s (s.visitAll pass nodes).scope :=
  visitAll_induction Steady.refl Steady.trans (fun s n => steady_visit s pass n) s nodes

theorem scope_visitAll_validation (s : Scope) (nodes : List Node) :
    (s.visitAll .validation nodes).scope = s :=
  visitAll_induction (R := fun s s' => s' = s) (fun _ => rfl) (fun h h' => h'.trans h)
    (fun _ _ => rfl) s nodes

end Scope

namespace Method

open Scope (Steady)

theorem scope_validate (s : Scope) (m : Method) : (m.validate s).scope = s := by
  unfold validate
  cases m.fault? with
  | some d => rfl
  | none => exact Scope.scope_visitAll_validation s m.nodes

/-- Only the first pass of an analysis changes the scope. -/
theorem scope_analyze (s : Scope) (m : Method) : (m.analyze s).scope = (m.evaluate s).scope := by
  rw [analyze]
  cases h : (m.evaluate s).verdict with
  | ok u =>
    rw [Report.andThen_of_ok h]
    exact m.scope_validate _
  | error d => rw [Report.andThen_of_error h]

theorem steady_analyze (s : Scope) (m : Method) : Steady s (m.analyze s).scope := by
  rw [scope_analyze]
  exact Scope.steady_visitAll s .evaluation m.nodes

theorem grows_analyze (s : Scope) (m : Method) : s.Grows (m.analyze s).scope := by
  rw [scope_analyze]
  exact Scope.grows_visitAll s .evaluation m.nodes

end Method
end Idl
