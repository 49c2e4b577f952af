import Idl.Analysis
import Idl.Request.Basic
import Idl.Var.Read

/-!
# The declared method of a request

The arguments of the method stand on line 1 of the command line and its results on line 2, each
in the column of its place in the list. The method is analysed before it is handed over.
-/

namespace Idl.Request

def commandLine : String := "<command line>"

/-- Reads declarations, the first of them in the given column. -/
def readVars (line : Nat) (s : Scope) (column : Nat) :
    List String → Except Failure (List Var × Scope)
  | [] => .ok ([], s)
  | text :: rest => do
    let (v, s) ← Var.read s text (.point commandLine line column)
    let (vs, s) ← readVars line s (column + 1) rest
    return (v :: vs, s)

/-- All declarations are read before their names are compared. -/
def readVarList (line : Nat) (s : Scope) (texts : List String) :
    Except Failure (VarList × Scope) := do
  let (vs, s) ← readVars line s 1 texts
  let l ← (VarList.ofList vs).mapError .semantic
  return (l, s)

/-- An annotation may be given with or without its `@`. -/
def readNote (text : String) : Annotation :=
  .named (String.ofList (text.toList.dropWhile (· = '@'))) []

def methodLocation (r : Request) : Location :=
  ⟨some commandLine, ⟨1, 1⟩, ⟨2, r.results.length + 1⟩⟩

def draft (r : Request) (s : Scope) (name : String) : Except Failure (Method × Scope) :=
  if name = "" then .error (.usage .emptyMethodName)
  else do
    let (args, s) ← readVarList 1 s r.args
    let (results, s) ← readVarList 2 s r.results
    return s.declare name args results r.oneway (r.annotations.map readNote) r.methodLocation

/-- The declared method, if the request names one, and the scope after its analysis. -/
def declared (r : Request) (s : Scope) : Except Failure (Option Method × Scope) :=
  match r.name with
  | none => .ok (none, s)
  | some name => do
    let (m, s) ← r.draft s name
    let report := m.analyze s
    report.verdict.mapError .semantic
    return (some m, report.scope)

end Idl.Request
