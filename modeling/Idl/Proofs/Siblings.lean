import Idl.Proofs.Dispatch
import Idl.Proofs.Frozen
import Idl.Proofs.Steady
import Mathlib.Logic.Function.Basic

/-!
# Methods of one declaration

A method and its copies share their declaration and stand in one scope, but each has its own place
and its own standing. A `Session` holds such methods; a `Step` is a call on one of them, an analysis
of one, or something that happens to the scope. Whatever the steps are, all methods of a declaration
go on to have the same text and the same faults, and each is numbered and reserved as if there were
no other.
-/

namespace Idl

namespace Method

variable {m m' : Method}

/-- The method after some calls, one after the other. -/
def afterCalls (m : Method) (calls : List Call) : Method :=
  calls.foldl (fun m c => (m.call c).2) m

/-- A call changes nothing but the standing. -/
theorem exists_call_eq (m : Method) (c : Call) :
    ∃ standing, (m.call c).2 = { m with standing := standing } := by
  cases hc : c.misuse? with
  | some misuse =>
    rw [call_of_misuse hc]
    exact ⟨m.standing, rfl⟩
  | none =>
    cases c with
    | number serial =>
      simp only [call, number]
      rcases m.standing with (_ | earlier) | _ <;> exact ⟨_, rfl⟩
    | reserve serial native managed =>
      obtain ⟨hnative, hmanaged⟩ := backends_of_misuse? hc
      simp only [call, reserve_of_backends hnative hmanaged]
      rcases m.standing with (_ | earlier) | _ <;> exact ⟨_, rfl⟩

theorem exists_afterCalls_eq (m : Method) (calls : List Call) :
    ∃ standing, m.afterCalls calls = { m with standing := standing } := by
  induction calls generalizing m with
  | nil => exact ⟨m.standing, rfl⟩
  | cons c rest ih =>
    obtain ⟨standing, hcall⟩ := exists_call_eq m c
    obtain ⟨standing', hrest⟩ := ih (m.call c).2
    refine ⟨standing', hrest.trans ?_⟩
    rw [hcall]

section Declared

variable (h : m'.declaration = m.declaration)

include h

theorem nodes_congr : m'.nodes = m.nodes := by
  unfold nodes args results annotations
  rw [h]

theorem signature_congr (s : Scope) : m'.signature s = m.signature s := by
  unfold signature name args results annotations
  rw [h]

theorem fault?_congr : m'.fault? = m.fault? := by
  unfold fault? name oneway results
  rw [h]

end Declared

/-- What evaluation reports before the method is named. -/
def evaluation (s : Scope) (m : Method) : Report := s.visitAll .evaluation m.nodes

/-- What validation reports before the method is named. -/
def validation (s : Scope) (m : Method) : Report :=
  match m.fault? with
  | some d => .ofVerdict s (.error d)
  | none => s.visitAll .validation m.nodes

theorem evaluate_eq_of_declaration (h : m'.declaration = m.declaration) (s : Scope) :
    m'.evaluate s = (m.evaluation s).mapError m'.wrap := by
  rw [evaluate, nodes_congr h, evaluation]

theorem validate_eq_of_declaration (h : m'.declaration = m.declaration) (s : Scope) :
    m'.validate s = (m.validation s).mapError m'.wrap := by
  rw [validate, fault?_congr h, nodes_congr h, validation]
  cases m.fault? <;> rfl

end Method

/-- Some methods, and the scope in which their types are resolved. -/
structure Session (ι : Type) where
  scope : Scope
  methods : ι → Method

/-- What can be done to a method, or else to the scope. -/
inductive Step (ι : Type) where
  | call (i : ι) (c : Method.Call)
  | evaluate (i : ι)
  | validate (i : ι)
  | act (a : Scope.Action)

namespace Step

variable {ι : Type} [DecidableEq ι]

/-- The call that a step makes on a method, if it makes one. -/
def callOn (i : ι) : Step ι → Option Method.Call
  | call j c => if j = i then some c else none
  | _ => none

/-- What a step does to the scope if `m` is evaluated in place of any other method. -/
def action (m : Method) : Step ι → Option Scope.Action
  | evaluate _ => some (.evaluateMethod m)
  | act a => some a
  | _ => none

end Step

namespace Session

open Method (Call Answer)

variable {ι : Type} [DecidableEq ι] {m : Method}

def step (w : Session ι) : Step ι → Session ι
  | .call i c => { w with methods := Function.update w.methods i ((w.methods i).call c).2 }
  | .evaluate i => { w with scope := ((w.methods i).evaluate w.scope).scope }
  | .validate i => { w with scope := ((w.methods i).validate w.scope).scope }
  | .act a => { w with scope := w.scope.act a }

def run (w : Session ι) (steps : List (Step ι)) : Session ι := steps.foldl step w

/-- The answers to the calls on one method, each with the method after it. -/
def answersOf (i : ι) : Session ι → List (Step ι) → List (Answer × Method)
  | _, [] => []
  | w, st :: rest =>
    match st.callOn i with
    | some c => (w.methods i).call c :: answersOf i (w.step st) rest
    | none => answersOf i (w.step st) rest

/-- A step changes a method only if it is a call on it. -/
theorem methods_step (w : Session ι) (st : Step ι) (i : ι) :
    (w.step st).methods i =
      match st.callOn i with
      | some c => ((w.methods i).call c).2
      | none => w.methods i := by
  cases st with
  | call j c =>
    by_cases h : j = i
    · subst h
      have hcall : (Step.call j c).callOn j = some c := if_pos rfl
      rw [hcall]
      exact Function.update_self j _ _
    · have hcall : (Step.call j c).callOn i = none := if_neg h
      rw [hcall]
      exact Function.update_of_ne (Ne.symm h) _ _
  | evaluate j => rfl
  | validate j => rfl
  | act a => rfl

/-- Calls on one method are answered as if nothing happened between them. -/
theorem methods_run (w : Session ι) (steps : List (Step ι)) (i : ι) :
    (w.run steps).methods i = (w.methods i).afterCalls (steps.filterMap (Step.callOn i)) ∧
      answersOf i w steps = (w.methods i).trace (steps.filterMap (Step.callOn i)) := by
  induction steps generalizing w with
  | nil => exact ⟨rfl, rfl⟩
  | cons st rest ih =>
    obtain ⟨hmethod, hanswers⟩ := ih (w.step st)
    have hstep := w.methods_step st i
    rw [run, List.foldl_cons, answersOf]
    change ((w.step st).run rest).methods i = _ ∧ _
    cases hcall : st.callOn i with
    | none =>
      rw [hcall] at hstep
      rw [hmethod, hanswers, hstep, List.filterMap_cons_none hcall]
      exact ⟨rfl, rfl⟩
    | some c =>
      rw [hcall] at hstep
      rw [hmethod, List.filterMap_cons_some hcall]
      simp only [hanswers, hstep]
      exact ⟨rfl, rfl⟩

theorem declaration_run (w : Session ι) (steps : List (Step ι)) (i : ι) :
    ((w.run steps).methods i).declaration = (w.methods i).declaration ∧
      ((w.run steps).methods i).location = (w.methods i).location := by
  obtain ⟨standing, heq⟩ :=
    (w.methods i).exists_afterCalls_eq (steps.filterMap (Step.callOn i))
  rw [(w.methods_run steps i).1, heq]
  exact ⟨rfl, rfl⟩

/-- All methods of the session are declared as `m` is. -/
def Shares (w : Session ι) (m : Method) : Prop :=
  ∀ i, (w.methods i).declaration = m.declaration

theorem Shares.run {w : Session ι} (h : w.Shares m) (steps : List (Step ι)) :
    (w.run steps).Shares m :=
  fun i => (w.declaration_run steps i).1.trans (h i)

theorem Shares.scope_step {w : Session ι} (h : w.Shares m) (st : Step ι) :
    (w.step st).scope =
      match st.action m with
      | some a => w.scope.act a
      | none => w.scope := by
  cases st with
  | call i c => rfl
  | evaluate i =>
    change ((w.methods i).evaluate w.scope).scope = (m.evaluate w.scope).scope
    rw [Method.evaluate_eq_of_declaration (h i), Method.evaluate_eq_of_declaration rfl]
    rfl
  | validate i => exact (w.methods i).scope_validate w.scope
  | act a => rfl

/-- The scope is the same whichever of the methods are evaluated. -/
theorem Shares.scope_run {w : Session ι} (h : w.Shares m) (steps : List (Step ι)) :
    (w.run steps).scope = w.scope.after (steps.filterMap (Step.action m)) := by
  induction steps generalizing w with
  | nil => rfl
  | cons st rest ih =>
    have hstep := h.scope_step st
    have hrest := ih (h.run [st])
    change ((w.step st).run rest).scope = (w.step st).scope.after _ at hrest
    change ((w.step st).run rest).scope = _
    rw [hrest]
    cases haction : st.action m with
    | none =>
      rw [haction] at hstep
      rw [hstep, List.filterMap_cons_none haction]
    | some a =>
      rw [haction] at hstep
      rw [hstep, List.filterMap_cons_some haction]
      rfl

end Session

namespace Method

/-- A method, and the copy of its signature. -/
inductive Side where
  | original
  | copy
  deriving DecidableEq, Repr

def sides (m : Method) : Side → Method
  | .original => m
  | .copy => m.sibling

theorem shares_sides (s : Scope) (m : Method) : (Session.mk s m.sides).Shares m := by
  intro side
  cases side <;> rfl

/-- Whatever happens to a method, to a copy of its signature and to the scope they stand in, and in
whatever order: at each point the two have the same text and the same faults, told apart only by
where they are, and evaluating either of them resolves the types of both. The scope does not see
which of them was evaluated, nor any call. Each has the standing and gets the answers that the calls
on it alone give, where the copy starts as a new method does. -/
theorem siblings_stay_in_step (s : Scope) (m : Method) (steps : List (Step Side)) :
    let start : Session Side := ⟨s, m.sides⟩
    let now := start.run steps
    let g := m.signature now.scope
    (∀ side,
      let m' := now.methods side
      let g' := m'.signature now.scope
      (∀ style, Native.declaration style g' = Native.declaration style g) ∧
        (∀ style role, ∃ body, Native.define style now.scope m' role =
          .ok (Native.signature style g ++ Doc.text " " ++ Doc.block "" body)) ∧
        ∀ e : Emitter, e.args g' = e.args g ∧ e.results g' = e.results g ∧
          e.fallbackBody g' = e.fallbackBody g) ∧
    (∃ evaluation validation : Report, ∀ side,
      (now.methods side).evaluate now.scope = evaluation.mapError (m.sides side).wrap ∧
        (now.methods side).validate now.scope = validation.mapError (m.sides side).wrap ∧
        (evaluation.verdict = .ok () → (now.methods side).Settled evaluation.scope)) ∧
    now.scope = s.after (steps.filterMap (Step.action m)) ∧
    (∀ side,
      let own := steps.filterMap (Step.callOn side)
      now.methods side = (m.sides side).afterCalls own ∧
        start.answersOf side steps = (m.sides side).trace own) ∧
    (∀ d, m.wrap d = .inMethod m.name m.location d ∧
      m.sibling.wrap d = .inMethod m.name .empty d) ∧
    m.sibling.serial? = none ∧ m.sibling.isReserved = false ∧
      (∀ backend, m.sibling.bodies backend = .empty backend) ∧ m.sibling.location = .empty ∧
      ∀ standing location, m.sibling = sibling ⟨m.declaration, location, standing⟩ := by
  intro start now g
  have hstart : start.Shares m := shares_sides s m
  have hnow : now.Shares m := hstart.run steps
  refine ⟨fun side => ?_, ⟨m.evaluation now.scope, m.validation now.scope, fun side => ?_⟩,
    hstart.scope_run steps, fun side => start.methods_run steps side, fun d => ⟨rfl, rfl⟩, rfl, rfl,
    bodies_eq_empty rfl, rfl, fun _ _ => rfl⟩
  · intro m' g'
    have hsignature : g' = g := signature_congr (hnow side) now.scope
    rw [hsignature]
    refine ⟨fun style => rfl, fun style role => ?_, fun e => ⟨rfl, rfl, rfl⟩⟩
    have hbody := Emitter.body_eq_ok (.native style) now.scope m' role
    have hdefine := Doc.define_of_body hbody
    rw [show m'.signature now.scope = g from hsignature, Native.definition] at hdefine
    exact ⟨_, hdefine⟩
  · have hwrap : (now.methods side).wrap = (m.sides side).wrap := by
      obtain ⟨hdeclaration, hlocation⟩ := start.declaration_run steps side
      funext d
      rw [wrap, wrap, name, name, hdeclaration, hlocation]
    have hevaluate := evaluate_eq_of_declaration (hnow side) now.scope
    have hvalidate := validate_eq_of_declaration (hnow side) now.scope
    rw [hwrap] at hevaluate hvalidate
    refine ⟨hevaluate, hvalidate, fun hok => ?_⟩
    have hsettled := settled_of_evaluate_eq_ok (s := now.scope) (m := now.methods side)
    rw [hevaluate] at hsettled
    exact hsettled (Report.verdict_mapError_eq_ok_iff.2 hok)

end Method
end Idl
