import Idl.Analysis
import Idl.Proofs.Resolution

/-!
# Scopes only grow

Whatever happens to a scope, and whether it succeeds, a resolved reference keeps its target. So a
type whose evaluation has once succeeded is resolved for good: from then on its walk leads through
targets alone, and no binding is asked again.
-/

namespace Idl.Scope

open Ty (Walk)

variable {s s' s'' : Scope} {t : Ty} {depth depth' : Nat} {l l' : Leaf}

/-- What can happen to a scope. -/
inductive Action where
  | bind (name : String) (t : Ty)
  | refer (name : String) (location : Location)
  | instantiate (e : TypeExpr) (location : Location)
  | declare (name : String) (args results : VarList) (oneway : Bool)
    (annotations : List Annotation) (location : Location)
  | evaluate (t : Ty)
  | evaluateMethod (m : Method)

def act (s : Scope) : Action → Scope
  | .bind name t => s.bind name t
  | .refer name location => (s.refer name location).2
  | .instantiate e location => (s.instantiate e location).2
  | .declare name args results oneway annotations location =>
    (s.declare name args results oneway annotations location).2
  | .evaluate t => (s.evaluate t).2
  | .evaluateMethod m => (m.evaluate s).scope

/-- The scope after some actions, one after the other. -/
def after (s : Scope) (actions : List Action) : Scope := actions.foldl act s

/-- Every target of `s` is one of `s'`. -/
def Grows (s s' : Scope) : Prop := ∀ r t, s.target? r = some t → s'.target? r = some t

theorem Grows.refl (s : Scope) : Grows s s := fun _ _ h => h

theorem Grows.trans (h : Grows s s') (h' : Grows s' s'') : Grows s s'' :=
  fun r t ht => h' r t (h r t ht)

theorem grows_evaluate (s : Scope) (t : Ty) : Grows s (s.evaluate t).2 :=
  fun _ _ h => target?_evaluate_of_some t h

theorem grows_visit (s : Scope) (pass : Pass) (n : Node) : Grows s (s.visit pass n).scope := by
  cases pass with
  | evaluation =>
    cases n with
    | argument v => exact grows_evaluate s v.type
    | result v => exact grows_evaluate s v.type
    | attached a => exact .refl s
  | validation => exact .refl s

/-- What relates the scopes before and after each visit relates those before and after a pass. -/
theorem visitAll_induction {R : Scope → Scope → Prop} {pass : Pass} (hrefl : ∀ s, R s s)
    (htrans : ∀ {s s' s''}, R s s' → R s' s'' → R s s'')
    (hvisit : ∀ s n, R s (s.visit pass n).scope) (s : Scope) (nodes : List Node) :
    R s (s.visitAll pass nodes).scope := by
  induction nodes generalizing s with
  | nil => exact hrefl s
  | cons n rest ih =>
    rw [visitAll]
    cases h : (s.visit pass n).verdict with
    | ok u =>
      rw [Report.andThen_of_ok h]
      exact htrans (hvisit s n) (ih _)
    | error d =>
      rw [Report.andThen_of_error h]
      exact hvisit s n

theorem grows_visitAll (s : Scope) (pass : Pass) (nodes : List Node) :
    Grows s (s.visitAll pass nodes).scope :=
  visitAll_induction Grows.refl Grows.trans (fun s n => grows_visit s pass n) s nodes

theorem grows_act (s : Scope) (a : Action) : Grows s (s.act a) := by
  cases a with
  | bind => exact fun _ _ h => h
  | refer => exact fun _ _ h => h
  | instantiate => exact fun _ _ h => h
  | declare => exact fun _ _ h => h
  | evaluate t => exact grows_evaluate s t
  | evaluateMethod m => exact grows_visitAll s .evaluation m.nodes

theorem grows_after (s : Scope) (actions : List Action) : Grows s (s.after actions) := by
  induction actions generalizing s with
  | nil => exact .refl s
  | cons a rest ih => exact (grows_act s a).trans (ih (s.act a))

/-- Targets lead from the type to the leaf, through `depth` vectors, and the leaf evaluates. -/
structure Resolved (s : Scope) (t : Ty) (depth : Nat) (l : Leaf) : Prop where
  evaluation : l.evaluate = .ok ()
  walk : ∃ path, Walk s.target? t path depth (.leaf l)

theorem exists_resolved_of_evaluate_eq_ok (h : (s.evaluate t).1 = .ok ()) :
    ∃ depth l, (s.evaluate t).2.Resolved t depth l := by
  obtain ⟨path, depth, l, hw⟩ := exists_walk_of_follow_eq_ok (n := s.hops) h
  obtain ⟨hverdict, halong⟩ := evaluate_of_walk hw
  refine ⟨depth, l, hverdict.symm.trans h, path, hw.congr fun r hr => ?_⟩
  rw [halong.target?_eq, if_pos hr]

namespace Resolved

theorem unique (h : s.Resolved t depth l) (h' : s.Resolved t depth' l') :
    depth = depth' ∧ l = l' := by
  obtain ⟨path, hw⟩ := h.walk
  obtain ⟨path', hw'⟩ := h'.walk
  obtain ⟨-, hdepth, hl⟩ := hw.unique hw'
  exact ⟨hdepth, Ty.Core.leaf.inj hl⟩

/-- The walk is made by whatever leads on from a reference as its target does. -/
theorem exists_walk {f : Ref → Option Ty} (h : s.Resolved t depth l)
    (hf : ∀ r u, s.target? r = some u → f r = some u) : ∃ path, Walk f t path depth (.leaf l) := by
  obtain ⟨path, hw⟩ := h.walk
  refine ⟨path, hw.congr fun r hr => ?_⟩
  obtain ⟨u, hu⟩ := Option.isSome_iff_exists.1 (hw.isSome_of_leaf hr)
  rw [hu, hf r u hu]

theorem of_grows (h : s.Resolved t depth l) (hgrows : Grows s s') : s'.Resolved t depth l :=
  ⟨h.evaluation, h.exists_walk hgrows⟩

/-- What is resolved evaluates again, whatever is bound meanwhile. -/
theorem evaluate_eq_ok (h : s.Resolved t depth l) : (s.evaluate t).1 = .ok () := by
  obtain ⟨path, hw⟩ := h.exists_walk fun r u => next?_of_target?
  rw [(evaluate_of_walk hw).1]
  exact h.evaluation

theorem shape_eq (h : s.Resolved t depth l) : s.shape t = (Shape.leaf l).vectors depth := by
  obtain ⟨path, hw⟩ := h.walk
  exact shape_of_walk hw

end Resolved
end Idl.Scope
