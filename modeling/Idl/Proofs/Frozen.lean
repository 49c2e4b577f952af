import Idl.Doc.Sink
import Idl.Emit.Emitter
import Idl.Proofs.Growth

/-!
# Evaluated methods are frozen

Once a method has been evaluated with success, all types in it are resolved for good, so the
backends are told the same signature ever after. What binds names anew, fails, or evaluates other
types that share references with the method makes no difference to it.
-/

namespace Idl

namespace Node

/-- The node has been evaluated with success in the scope or in an earlier one. -/
def Settled (s : Scope) : Node → Prop
  | argument v | result v => ∃ depth l, s.Resolved v.type depth l
  | attached a => a.evaluate = .ok ()

theorem Settled.of_grows {s s' : Scope} {n : Node} (h : n.Settled s) (hgrows : s.Grows s') :
    n.Settled s' := by
  cases n with
  | argument v | result v =>
    obtain ⟨depth, l, hl⟩ := h
    exact ⟨depth, l, hl.of_grows hgrows⟩
  | attached a => exact h

theorem settled_of_visit {s : Scope} {n : Node} (h : (s.visit .evaluation n).verdict = .ok ()) :
    n.Settled (s.visit .evaluation n).scope := by
  cases n with
  | argument v | result v => exact Scope.exists_resolved_of_evaluate_eq_ok h
  | attached a => exact h

theorem Settled.visit_eq_ok {s : Scope} {n : Node} (h : n.Settled s) :
    (s.visit .evaluation n).verdict = .ok () := by
  cases n with
  | argument v | result v =>
    obtain ⟨depth, l, hl⟩ := h
    exact hl.evaluate_eq_ok
  | attached a => exact h

theorem Settled.validate_eq {s s' : Scope} {n : Node} (h : n.Settled s) (hgrows : s.Grows s') :
    n.validate s' = n.validate s := by
  cases n with
  | argument v | result v =>
    obtain ⟨depth, l, hl⟩ := h
    change (s'.shape v.type).validate = (s.shape v.type).validate
    rw [hl.shape_eq, (hl.of_grows hgrows).shape_eq]
  | attached a => rfl

end Node

namespace Scope

theorem settled_of_visitAll {s : Scope} {nodes : List Node}
    (h : (s.visitAll .evaluation nodes).verdict = .ok ()) :
    ∀ n ∈ nodes, n.Settled (s.visitAll .evaluation nodes).scope := by
  induction nodes generalizing s with
  | nil => exact fun n hn => absurd hn List.not_mem_nil
  | cons n rest ih =>
    rw [visitAll] at h ⊢
    cases hn : (s.visit .evaluation n).verdict with
    | error d => rw [Report.andThen_of_error hn, hn] at h; cases h
    | ok u =>
      rw [Report.andThen_of_ok hn] at h ⊢
      intro n' hn'
      rcases List.mem_cons.1 hn' with rfl | hn'
      · exact (Node.settled_of_visit hn).of_grows (grows_visitAll _ _ rest)
      · exact ih h n' hn'

theorem visitAll_eq_ok_of_settled {s : Scope} {nodes : List Node} (h : ∀ n ∈ nodes, n.Settled s) :
    (s.visitAll .evaluation nodes).verdict = .ok () := by
  induction nodes generalizing s with
  | nil => rfl
  | cons n rest ih =>
    rw [visitAll, Report.andThen_of_ok (h n List.mem_cons_self).visit_eq_ok]
    exact ih fun n' hn' =>
      (h n' (List.mem_cons_of_mem n hn')).of_grows (grows_visit s .evaluation n)

theorem verdict_validation_congr {s s' : Scope} {nodes : List Node}
    (h : ∀ n ∈ nodes, n.validate s' = n.validate s) :
    (s'.visitAll .validation nodes).verdict = (s.visitAll .validation nodes).verdict := by
  induction nodes with
  | nil => rfl
  | cons n rest ih =>
    have hn : (s'.visit .validation n).verdict = (s.visit .validation n).verdict :=
      h n List.mem_cons_self
    rw [visitAll, visitAll]
    cases hv : (s.visit .validation n).verdict with
    | error d => rw [Report.andThen_of_error hv, Report.andThen_of_error (hn.trans hv), hn]
    | ok u =>
      rw [Report.andThen_of_ok hv, Report.andThen_of_ok (hn.trans hv)]
      exact ih fun n' hn' => h n' (List.mem_cons_of_mem n hn')

end Scope

namespace Method

/-- All nodes of the method have been evaluated with success. -/
def Settled (s : Scope) (m : Method) : Prop := ∀ n ∈ m.nodes, n.Settled s

variable {s s' : Scope} {m : Method}

theorem settled_of_evaluate_eq_ok (h : (m.evaluate s).verdict = .ok ()) :
    m.Settled (m.evaluate s).scope :=
  Scope.settled_of_visitAll (Report.verdict_mapError_eq_ok_iff.1 h)

theorem Settled.evaluate_eq_ok (h : m.Settled s) : (m.evaluate s).verdict = .ok () :=
  Report.verdict_mapError_eq_ok_iff.2 (Scope.visitAll_eq_ok_of_settled h)

theorem Settled.of_grows (h : m.Settled s) (hgrows : s.Grows s') : m.Settled s' :=
  fun n hn => (h n hn).of_grows hgrows

theorem Settled.validate_eq (h : m.Settled s) (hgrows : s.Grows s') :
    (m.validate s').verdict = (m.validate s).verdict := by
  unfold validate
  cases m.fault? with
  | some d => rfl
  | none =>
    have hnodes := Scope.verdict_validation_congr fun n hn => (h n hn).validate_eq hgrows
    simp only [Report.mapError, hnodes]

/-- A settled method keeps the signature that the backends are told. -/
theorem Settled.signature_eq (h : m.Settled s) (hgrows : s.Grows s') :
    m.signature s' = m.signature s := by
  have hparam : ∀ v : Var, (∃ depth l, s.Resolved v.type depth l) → v.param s' = v.param s := by
    rintro v ⟨depth, l, hl⟩
    rw [Var.param, Var.param, hl.shape_eq, (hl.of_grows hgrows).shape_eq]
  have hargs : m.args.map (Var.param s') = m.args.map (Var.param s) :=
    List.map_congr_left fun v hv => hparam v (h (.argument v) (by simp [nodes, hv]))
  have hresults : m.results.map (Var.param s') = m.results.map (Var.param s) :=
    List.map_congr_left fun v hv => hparam v (h (.result v) (by simp [nodes, hv]))
  rw [signature, signature, hargs, hresults]

/-- Later on, and with whatever standing, a method that was evaluated with success evaluates again,
is judged as it was then, and is written as it was then. -/
theorem frozen_of_evaluate_eq_ok (h : (m.evaluate s).verdict = .ok ())
    (actions : List Scope.Action) (standing : Standing) :
    let before := (m.evaluate s).scope
    let later := before.after actions
    let m' : Method := { m with standing := standing }
    (m'.evaluate later).verdict = .ok () ∧
      (m'.validate later).verdict = (m.validate before).verdict ∧
      (m'.signature later).delivery.direct? = (m.signature before).delivery.direct? ∧
      (∀ style, Native.signature style (m'.signature later) =
        Native.signature style (m.signature before)) ∧
      Managed.args (m'.signature later) = Managed.args (m.signature before) ∧
      Managed.results (m'.signature later) = Managed.results (m.signature before) ∧
      (∀ e : Emitter, e.fallbackBody (m'.signature later) = e.fallbackBody (m.signature before)) ∧
      (m'.isReserved = m.isReserved → m'.hasManagedForm later = m.hasManagedForm before) := by
  intro before later m'
  have hsettled : m.Settled before := settled_of_evaluate_eq_ok h
  have hgrows : before.Grows later := Scope.grows_after before actions
  have hsignature : m'.signature later = m.signature before := hsettled.signature_eq hgrows
  have hlater : m'.Settled later := hsettled.of_grows hgrows
  refine ⟨hlater.evaluate_eq_ok, hsettled.validate_eq hgrows, ?_, fun style => ?_, ?_, ?_,
    fun e => ?_, fun hreserved => ?_⟩
  · rw [hsignature]
  · rw [hsignature]
  · rw [hsignature]
  · rw [hsignature]
  · rw [hsignature]
  · have hhides : m'.hidesTypes = m.hidesTypes := by rw [hidesTypes, hreserved]; rfl
    rw [hasManagedForm, hasManagedForm, hhides, hsignature]

/-- Neither new bindings for all names on its way nor a failure elsewhere change a method. -/
theorem frozen_through_rebound_names :
    let status : Ref := ⟨0, "Status", .empty⟩
    let s := (Scope.initial.bind "Status" (.ref ⟨1, "Code", .empty⟩)).bind "Code" (.scalar .uint32)
    let m : Method := ⟨⟨2, "poll", ⟨[⟨"states", .vec (.ref status), .empty⟩], by simp⟩,
      ⟨[⟨"code", .ref status, .empty⟩], by simp⟩, false, []⟩, .empty, .ordinary none⟩
    let later := (m.evaluate s).scope.after [.bind "Status" .handle, .bind "Code" .string,
      .evaluate (.vec (.ref ⟨3, "Missing", .empty⟩)), .evaluateMethod m.sibling]
    let m' : Method := { m with standing := .reserved 1 (.empty .native) (.empty .managed) }
    (m.evaluate s).verdict = .ok () ∧ (m'.evaluate later).verdict = .ok () ∧
      (Native.signature .header (m'.signature later)).toText =
        "Return<uint32_t> poll(const hidl_vec<uint32_t>& states)" := by
  intro status s m later m'
  have hok : (m.evaluate s).verdict = .ok () := rfl
  have hfrozen := frozen_of_evaluate_eq_ok hok [.bind "Status" .handle, .bind "Code" .string,
    .evaluate (.vec (.ref ⟨3, "Missing", .empty⟩)), .evaluateMethod m.sibling] m'.standing
  obtain ⟨hagain, -, -, hnative, -⟩ := hfrozen
  exact ⟨hok, hagain, (congrArg Doc.toText (hnative .header)).trans (by decide)⟩

end Method
end Idl
