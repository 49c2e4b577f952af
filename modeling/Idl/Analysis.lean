import Idl.Method

/-!
# Analysis

A method is analysed in two passes over the same nodes: its arguments, its results and its
annotations, in order. The first pass resolves types, the second checks what was resolved. Either
stops at the first failure, which is reported within its method. A report lists the nodes that
were visited, the failing one included.
-/

namespace Idl

inductive Node where
  | argument (v : Var)
  | result (v : Var)
  | attached (a : Annotation)

inductive Pass where
  | evaluation
  | validation
  deriving DecidableEq, Repr

structure Visit where
  pass : Pass
  node : Node

structure Report where
  scope : Scope
  visits : List Visit
  verdict : Verdict

namespace Node

def label : Node → String
  | argument v => "argument '" ++ v.name ++ "'"
  | result v => "result '" ++ v.name ++ "'"
  | attached a => "annotation '@" ++ a.name ++ "'"

def evaluate (s : Scope) : Node → Verdict × Scope
  | argument v | result v => s.evaluate v.type
  | attached a => (a.evaluate, s)

def validate (s : Scope) : Node → Verdict
  | argument v | result v => s.validate v.type
  | attached a => a.validate

end Node

namespace Report

/-- Goes on in the scope that a successful report leaves. -/
def andThen (r : Report) (next : Scope → Report) : Report :=
  match r.verdict with
  | .ok _ =>
    let r' := next r.scope
    ⟨r'.scope, r.visits ++ r'.visits, r'.verdict⟩
  | .error _ => r

def mapError (f : Diagnostic → Diagnostic) (r : Report) : Report :=
  { r with verdict := r.verdict.mapError f }

def ofVerdict (s : Scope) (verdict : Verdict) : Report := ⟨s, [], verdict⟩

theorem andThen_of_ok {r : Report} (h : r.verdict = .ok ()) (next : Scope → Report) :
    r.andThen next =
      ⟨(next r.scope).scope, r.visits ++ (next r.scope).visits, (next r.scope).verdict⟩ := by
  rw [andThen, h]

theorem andThen_of_error {r : Report} {d : Diagnostic} (h : r.verdict = .error d)
    (next : Scope → Report) : r.andThen next = r := by
  rw [andThen, h]

theorem verdict_mapError_eq_ok_iff {f : Diagnostic → Diagnostic} {r : Report} :
    (r.mapError f).verdict = .ok () ↔ r.verdict = .ok () := by
  change r.verdict.mapError f = .ok () ↔ _
  cases r.verdict with
  | ok _ => exact Iff.rfl
  | error d => exact ⟨nofun, nofun⟩

end Report

namespace Scope

def visit (s : Scope) : Pass → Node → Report
  | .evaluation, n => let (verdict, s) := n.evaluate s; ⟨s, [⟨.evaluation, n⟩], verdict⟩
  | .validation, n => ⟨s, [⟨.validation, n⟩], n.validate s⟩

def visitAll (s : Scope) (pass : Pass) : List Node → Report
  | [] => .ofVerdict s (.ok ())
  | n :: rest => (s.visit pass n).andThen fun s => s.visitAll pass rest

end Scope

namespace Method

def nodes (m : Method) : List Node :=
  m.args.map .argument ++ m.results.map .result ++ m.annotations.map .attached

def wrap (m : Method) (d : Diagnostic) : Diagnostic := .inMethod m.name m.location d

def evaluate (s : Scope) (m : Method) : Report := (s.visitAll .evaluation m.nodes).mapError m.wrap

/-- What is wrong with the method as a whole, before any node is validated. -/
def fault? (m : Method) : Option Diagnostic :=
  if m.name = "" then some .emptyMethodName
  else if m.oneway && !m.results.isEmpty then some .onewayWithResults
  else none

def validate (s : Scope) (m : Method) : Report :=
  match m.fault? with
  | some d => .ofVerdict s (.error (m.wrap d))
  | none => (s.visitAll .validation m.nodes).mapError m.wrap

def analyze (s : Scope) (m : Method) : Report := (m.evaluate s).andThen m.validate

end Method

/-- Analyses methods one after the other, up to the first failure. -/
def Scope.analyzeAll (s : Scope) : List Method → Report
  | [] => .ofVerdict s (.ok ())
  | m :: rest => (m.analyze s).andThen fun s => s.analyzeAll rest

end Idl
