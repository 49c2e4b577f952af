import Idl.Analysis

/-!
# The course of an analysis

The course of an analysis is told from the declaration and from what its types and annotations say,
without the analysis. `Declaration.nodes` lists what is to be asked, `answer` is what a node says in
a pass, and `Passes` that no node fails, and where the last of them leaves the scope. What an
analysis visits and says is one of five courses: a node fails to evaluate, the method has no name,
it is oneway and has results, a node fails to validate, or nothing fails. Every analysis takes
exactly one of them.
-/

namespace Idl

/-- The nodes of a declaration: the arguments, the results and the annotations, in order. -/
def Declaration.nodes (d : Declaration) : List Node :=
  d.args.vars.map .argument ++ d.results.vars.map .result ++ d.annotations.map .attached

namespace Scope

variable {pass : Pass} {s s' s₁ : Scope} {nodes before : List Node} {n : Node} {d : Diagnostic}

/-- What a node says in a pass, and the scope that it leaves. A variable answers for its type, which
only evaluation resolves, and an annotation for itself. -/
def answer (s : Scope) : Pass → Node → Verdict × Scope
  | .evaluation, .argument v => s.evaluate v.type
  | .evaluation, .result v => s.evaluate v.type
  | .evaluation, .attached a => (a.evaluate, s)
  | .validation, .argument v => (s.validate v.type, s)
  | .validation, .result v => (s.validate v.type, s)
  | .validation, .attached a => (a.validate, s)

/-- Each node succeeds in the scope that the one before it leaves, and the last leaves `s'`. -/
inductive Passes (pass : Pass) : Scope → List Node → Scope → Prop
  | nil (s : Scope) : Passes pass s [] s
  | cons {s : Scope} {n : Node} {rest : List Node} {s' : Scope} :
    (s.answer pass n).1 = .ok () → Passes pass (s.answer pass n).2 rest s' →
    Passes pass s (n :: rest) s'

theorem answer_evaluation (s : Scope) (n : Node) : s.answer .evaluation n = n.evaluate s := by
  cases n <;> rfl

theorem answer_validation (s : Scope) (n : Node) : s.answer .validation n = (n.validate s, s) := by
  cases n <;> rfl

/-- A node that evaluates leaves the rest to pass in the scope that it leaves. -/
theorem Passes.of_evaluate (hn : (n.evaluate s).1 = .ok ())
    (h : Passes .evaluation (n.evaluate s).2 nodes s') : Passes .evaluation s (n :: nodes) s' := by
  rw [← answer_evaluation] at hn h
  exact .cons hn h

theorem visit_eq (pass : Pass) (s : Scope) (n : Node) :
    s.visit pass n = ⟨(s.answer pass n).2, [⟨pass, n⟩], (s.answer pass n).1⟩ := by
  cases pass with
  | evaluation => rw [answer_evaluation]; rfl
  | validation => rw [answer_validation]; rfl

/-- After nodes that pass, the visits go on where these leave the scope. -/
theorem visitAll_append (h : Passes pass s before s₁) (rest : List Node) :
    s.visitAll pass (before ++ rest) =
      ⟨(s₁.visitAll pass rest).scope,
        before.map (Visit.mk pass) ++ (s₁.visitAll pass rest).visits,
        (s₁.visitAll pass rest).verdict⟩ := by
  induction h with
  | nil s => rfl
  | cons hn _ ih =>
    rw [List.cons_append, visitAll, visit_eq, Report.andThen_of_ok hn, ih]
    rfl

theorem visitAll_of_passes (h : Passes pass s nodes s') :
    s.visitAll pass nodes = ⟨s', nodes.map (Visit.mk pass), .ok ()⟩ := by
  have happend := visitAll_append h []
  rw [List.append_nil] at happend
  rw [happend]
  simp only [visitAll, Report.ofVerdict, List.append_nil]

/-- A node that fails is the last to be visited. -/
theorem visitAll_of_error (h : Passes pass s before s₁) (hn : (s₁.answer pass n).1 = .error d)
    (after : List Node) :
    s.visitAll pass (before ++ n :: after) =
      ⟨(s₁.answer pass n).2, (before ++ [n]).map (Visit.mk pass), .error d⟩ := by
  rw [visitAll_append h, visitAll, visit_eq, Report.andThen_of_error hn, hn, List.map_append]
  rfl

/-- Where nodes do not pass, one of them fails first. -/
theorem exists_passes_or_error (pass : Pass) (s : Scope) (nodes : List Node) :
    (∃ s', Passes pass s nodes s') ∨
      ∃ before n after s₁ d, nodes = before ++ n :: after ∧ Passes pass s before s₁ ∧
        (s₁.answer pass n).1 = .error d := by
  induction nodes generalizing s with
  | nil => exact .inl ⟨s, .nil s⟩
  | cons n rest ih =>
    cases hn : (s.answer pass n).1 with
    | error d => exact .inr ⟨[], n, rest, s, d, rfl, .nil s, hn⟩
    | ok u =>
      rcases ih (s.answer pass n).2 with ⟨s', hrest⟩ | ⟨before, n', after, s₁, d, rfl, hbefore, hn'⟩
      · exact .inl ⟨s', .cons hn hrest⟩
      · exact .inr ⟨n :: before, n', after, s₁, d, rfl, .cons hn hbefore, hn'⟩

/-- Validation changes no scope, so its nodes pass one by one. -/
theorem passes_validation_iff : Passes .validation s nodes s' ↔
    s' = s ∧ ∀ n ∈ nodes, (s.answer .validation n).1 = .ok () := by
  constructor
  · intro h
    induction h with
    | nil s => exact ⟨rfl, fun n hn => absurd hn List.not_mem_nil⟩
    | @cons s n _ _ hn _ ih =>
      rw [answer_validation] at ih
      obtain ⟨rfl, hrest⟩ := ih
      refine ⟨rfl, fun n' hn' => ?_⟩
      rcases List.mem_cons.1 hn' with rfl | hn'
      · exact hn
      · exact hrest n' hn'
  · rintro ⟨rfl, h⟩
    induction nodes with
    | nil => exact .nil _
    | cons n rest ih =>
      refine .cons (h n List.mem_cons_self) ?_
      rw [answer_validation]
      exact ih fun n' hn' => h n' (List.mem_cons_of_mem n hn')

/-- Nodes that are valid pass, and leave the scope as it is. -/
theorem passes_of_validate (h : ∀ n ∈ nodes, n.validate s = .ok ()) :
    Passes .validation s nodes s := by
  refine passes_validation_iff.2 ⟨rfl, fun n hn => ?_⟩
  rw [answer_validation]
  exact h n hn

end Scope

namespace Method

open Scope (Passes)

variable {s s' : Scope} {m : Method} {visits : List Visit} {verdict : Verdict}

/-- `Course s m visits verdict`: analysed in the scope `s`, the method `m` has these nodes visited,
in this order and in these passes, and gets this verdict. -/
inductive Course (s : Scope) (m : Method) : List Visit → Verdict → Prop
  | unevaluated {before : List Node} {n : Node} {after : List Node} {s₁ : Scope} {d : Diagnostic} :
    m.declaration.nodes = before ++ n :: after → Passes .evaluation s before s₁ →
    (s₁.answer .evaluation n).1 = .error d →
    Course s m ((before ++ [n]).map (Visit.mk .evaluation))
      (.error (.inMethod m.declaration.name m.location d))
  | unnamed {s' : Scope} :
    Passes .evaluation s m.declaration.nodes s' → m.declaration.name = "" →
    Course s m (m.declaration.nodes.map (Visit.mk .evaluation))
      (.error (.inMethod m.declaration.name m.location .emptyMethodName))
  | oneway {s' : Scope} :
    Passes .evaluation s m.declaration.nodes s' → m.declaration.name ≠ "" →
    m.declaration.oneway → m.declaration.results.vars ≠ [] →
    Course s m (m.declaration.nodes.map (Visit.mk .evaluation))
      (.error (.inMethod m.declaration.name m.location .onewayWithResults))
  | invalid {s' s₁ : Scope} {before : List Node} {n : Node} {after : List Node} {d : Diagnostic} :
    Passes .evaluation s m.declaration.nodes s' → m.declaration.name ≠ "" →
    ¬ (m.declaration.oneway ∧ m.declaration.results.vars ≠ []) →
    m.declaration.nodes = before ++ n :: after → Passes .validation s' before s₁ →
    (s₁.answer .validation n).1 = .error d →
    Course s m
      (m.declaration.nodes.map (Visit.mk .evaluation) ++ (before ++ [n]).map (Visit.mk .validation))
      (.error (.inMethod m.declaration.name m.location d))
  | legal {s' s'' : Scope} :
    Passes .evaluation s m.declaration.nodes s' → m.declaration.name ≠ "" →
    ¬ (m.declaration.oneway ∧ m.declaration.results.vars ≠ []) →
    Passes .validation s' m.declaration.nodes s'' →
    Course s m (m.declaration.nodes.map (Visit.mk .evaluation) ++
      m.declaration.nodes.map (Visit.mk .validation)) (.ok ())

theorem fault?_of_unnamed (h : m.name = "") : m.fault? = some .emptyMethodName := if_pos h

theorem fault?_of_oneway (hname : m.name ≠ "") (honeway : m.oneway) (hresults : m.results ≠ []) :
    m.fault? = some .onewayWithResults := by
  rw [fault?, if_neg hname, if_pos]
  simp [honeway, hresults]

theorem fault?_of_sound (hname : m.name ≠ "") (h : ¬ (m.oneway ∧ m.results ≠ [])) :
    m.fault? = none := by
  rw [fault?, if_neg hname, if_neg]
  simpa using h

theorem nodes_eq (m : Method) : m.nodes = m.declaration.nodes := rfl

theorem analyze_of_error {before after : List Node} {n : Node} {s₁ : Scope} {d : Diagnostic}
    (hnodes : m.nodes = before ++ n :: after) (hbefore : Passes .evaluation s before s₁)
    (hn : (s₁.answer .evaluation n).1 = .error d) :
    m.analyze s = ⟨(s₁.answer .evaluation n).2, (before ++ [n]).map (Visit.mk .evaluation),
      .error (m.wrap d)⟩ := by
  have hvisits := Scope.visitAll_of_error hbefore hn after
  rw [← hnodes] at hvisits
  have hevaluate : (m.evaluate s).verdict = .error (m.wrap d) := by
    rw [evaluate, hvisits]
    rfl
  rw [analyze, Report.andThen_of_error hevaluate, evaluate, hvisits]
  rfl

theorem analyze_of_passes (h : Passes .evaluation s m.nodes s') :
    m.analyze s = ⟨(m.validate s').scope,
      m.nodes.map (Visit.mk .evaluation) ++ (m.validate s').visits, (m.validate s').verdict⟩ := by
  have hvisits := Scope.visitAll_of_passes h
  have hevaluate : m.evaluate s = ⟨s', m.nodes.map (Visit.mk .evaluation), .ok ()⟩ := by
    rw [evaluate, hvisits]
    rfl
  rw [analyze, hevaluate, Report.andThen_of_ok rfl]

theorem validate_of_fault {d : Diagnostic} (h : m.fault? = some d) :
    m.validate s = ⟨s, [], .error (m.wrap d)⟩ := by
  rw [validate, h]
  rfl

theorem validate_of_sound (h : m.fault? = none) :
    m.validate s = (s.visitAll .validation m.nodes).mapError m.wrap := by
  rw [validate, h]

theorem Course.analyze_eq (h : Course s m visits verdict) :
    (m.analyze s).visits = visits ∧ (m.analyze s).verdict = verdict := by
  cases h with
  | unevaluated hnodes hbefore hn =>
    rw [analyze_of_error hnodes hbefore hn]
    exact ⟨rfl, rfl⟩
  | unnamed hpasses hname =>
    rw [analyze_of_passes hpasses, validate_of_fault (fault?_of_unnamed hname)]
    exact ⟨List.append_nil _, rfl⟩
  | oneway hpasses hname honeway hresults =>
    rw [analyze_of_passes hpasses, validate_of_fault (fault?_of_oneway hname honeway hresults)]
    exact ⟨List.append_nil _, rfl⟩
  | @invalid _ _ before n after d hpasses hname hsound hnodes hbefore hn =>
    have hvisits := Scope.visitAll_of_error hbefore hn after
    rw [← hnodes, ← nodes_eq] at hvisits
    rw [analyze_of_passes hpasses, validate_of_sound (fault?_of_sound hname hsound), hvisits]
    exact ⟨rfl, rfl⟩
  | legal hpasses hname hsound hvalid =>
    have hvisits := Scope.visitAll_of_passes hvalid
    rw [← nodes_eq] at hvisits
    rw [analyze_of_passes hpasses, validate_of_sound (fault?_of_sound hname hsound), hvisits]
    exact ⟨rfl, rfl⟩

theorem exists_course (s : Scope) (m : Method) : ∃ visits verdict, Course s m visits verdict := by
  rcases Scope.exists_passes_or_error .evaluation s m.declaration.nodes with
    ⟨s', hpasses⟩ | ⟨before, n, after, s₁, d, hnodes, hbefore, hn⟩
  · by_cases hname : m.declaration.name = ""
    · exact ⟨_, _, .unnamed hpasses hname⟩
    by_cases hsound : m.declaration.oneway ∧ m.declaration.results.vars ≠ []
    · exact ⟨_, _, .oneway hpasses hname hsound.1 hsound.2⟩
    rcases Scope.exists_passes_or_error .validation s' m.declaration.nodes with
      ⟨_, hvalid⟩ | ⟨before, n, after, _, d, hnodes, hbefore, hn⟩
    · exact ⟨_, _, .legal hpasses hname hsound hvalid⟩
    · exact ⟨_, _, .invalid hpasses hname hsound hnodes hbefore hn⟩
  · exact ⟨_, _, .unevaluated hnodes hbefore hn⟩

/-- An accepted method is sound as a whole, and each of its nodes is valid in the scope that the
first pass leaves. -/
theorem of_analyze_eq_ok (h : (m.analyze s).verdict = .ok ()) :
    (m.evaluate s).verdict = .ok () ∧ m.fault? = none ∧
      ∀ n ∈ m.nodes, n.validate (m.evaluate s).scope = .ok () := by
  obtain ⟨visits, verdict, hcourse⟩ := exists_course s m
  obtain rfl : verdict = .ok () := hcourse.analyze_eq.2.symm.trans h
  cases hcourse with
  | @legal s' _ hpasses hname hsound hvalid =>
    have hevaluate : m.evaluate s = ⟨s', m.nodes.map (Visit.mk .evaluation), .ok ()⟩ := by
      rw [evaluate, nodes_eq, Scope.visitAll_of_passes hpasses]
      rfl
    rw [hevaluate]
    refine ⟨rfl, fault?_of_sound hname hsound, fun n hn => ?_⟩
    have hanswer := (Scope.passes_validation_iff.1 hvalid).2 n hn
    rwa [Scope.answer_validation] at hanswer

/-- Analysis visits exactly the nodes of its course and says what the course says. It succeeds if
and only if nothing fails. -/
theorem course_iff (s : Scope) (m : Method) :
    (∀ visits verdict, Course s m visits verdict ↔
      (m.analyze s).visits = visits ∧ (m.analyze s).verdict = verdict) ∧
    ((m.analyze s).verdict = .ok () ↔ ∃ s' s'', Passes .evaluation s m.declaration.nodes s' ∧
      m.declaration.name ≠ "" ∧ ¬ (m.declaration.oneway ∧ m.declaration.results.vars ≠ []) ∧
      Passes .validation s' m.declaration.nodes s'') := by
  obtain ⟨visits, verdict, hcourse⟩ := exists_course s m
  obtain ⟨hvisits, hverdict⟩ := hcourse.analyze_eq
  refine ⟨fun visits' verdict' => ⟨Course.analyze_eq, ?_⟩, ?_, ?_⟩
  · rintro ⟨rfl, rfl⟩
    rw [hvisits, hverdict]
    exact hcourse
  · intro hok
    rw [hok] at hverdict
    subst hverdict
    cases hcourse with
    | legal hpasses hname hsound hvalid => exact ⟨_, _, hpasses, hname, hsound, hvalid⟩
  · rintro ⟨s', s'', hpasses, hname, hsound, hvalid⟩
    exact (Course.legal hpasses hname hsound hvalid).analyze_eq.2

end Method
end Idl
