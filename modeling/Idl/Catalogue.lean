import Idl.Emit.Native
import Idl.FqName
import Idl.Analysis
import Idl.Serial

/-!
# Reserved methods

Every interface carries six reserved methods. `entries` lists them by serial, with their types as
expressions, so what they mean depends on the scope that they are declared in. They are analysed
in that order when a catalogue is built.
-/

namespace Idl.Catalogue

open Native (returnVoid)

structure Entry where
  name : String
  serial : UInt32
  /-- Type expression and name of each argument. -/
  args : List (TypeExpr × String)
  results : List (TypeExpr × String)
  oneway : Bool
  native : List (Role × Body)
  managed : List (Role × Body)

def strings : TypeExpr := .vec (.name "string")

def nativeChain (chain : List String) : Doc :=
  Doc.text "_hidl_cb(\x7b\n" ++
    Doc.nest (Doc.concat (chain.map fun name =>
      Doc.text (FqName.native name ++ "::descriptor,\n"))) ++
    Doc.text "\x7d);\n" ++ Doc.ofLines [returnVoid]

def managedChain (chain : List String) : Doc :=
  Doc.text "return new java.util.ArrayList<String>(java.util.Arrays.asList(\n" ++
    Doc.nest (Doc.join ",\n" (chain.map fun name =>
      Doc.text (FqName.managed name ++ ".kInterfaceName"))) ++
    Doc.text "));\n"

def interfaceChain (chain : List String) : Entry where
  name := "interfaceChain"
  serial := Serial.chain
  args := []
  results := [(strings, "descriptors")]
  oneway := false
  native := [(.interface, .emit (nativeChain chain))]
  managed := [(.interface, .emit (managedChain chain))]

def debug : Entry where
  name := Method.debugName
  serial := Serial.debug
  args := [(.name "handle", "fd"), (strings, "options")]
  results := []
  oneway := false
  native := [(.interface, .lines ["(void)fd;", "(void)options;", returnVoid])]
  managed := [(.interface, .lines ["return;"])]

def interfaceDescriptor (interface : String) : Entry where
  name := "interfaceDescriptor"
  serial := Serial.descriptor
  args := []
  results := [(.name "string", "descriptor")]
  oneway := false
  native := [(.interface,
    .lines ["_hidl_cb(" ++ FqName.native interface ++ "::descriptor);", returnVoid])]
  managed := [(.interface, .lines ["return " ++ FqName.managed interface ++ ".kInterfaceName;"])]

def configure : Body := .lines ["configureInstrumentation();", returnVoid]

def setHALInstrumentation : Entry where
  name := "setHALInstrumentation"
  serial := Serial.instrumentation
  args := []
  results := []
  oneway := true
  native := [(.interface, .empty), (.proxy, configure), (.stubImpl, configure),
    (.passthrough, configure)]
  managed := [(.interface, .empty)]

def ping : Entry where
  name := "ping"
  serial := Serial.ping
  args := []
  results := []
  oneway := false
  native := [(.interface, .lines [returnVoid])]
  managed := [(.interface, .lines ["return;"])]

def notifySyspropsChanged : Entry where
  name := "notifySyspropsChanged"
  serial := Serial.sysprops
  args := []
  results := []
  oneway := true
  native := [(.interface, .lines ["::android::report_sysprop_change();", returnVoid])]
  managed := [(.interface, .lines ["android.os.HwBinder.enableInstrumentation();"])]

/-- The entries for an interface. The chain lists the interface and its ancestors; an empty chain
stands for the interface alone. -/
def entries (interface : String) (chain : List String) : List Entry :=
  [interfaceChain (if chain.isEmpty then [interface] else chain), debug,
    interfaceDescriptor interface, setHALInstrumentation, ping, notifySyspropsChanged]

def declareVars (s : Scope) : List (TypeExpr × String) → List Var × Scope
  | [] => ([], s)
  | (type, name) :: rest =>
    let (t, s) := s.instantiate type .empty
    let (vars, s) := declareVars s rest
    (⟨name, t, .empty⟩ :: vars, s)

def Entry.declare (e : Entry) (s : Scope) : Except Failure (Method × Scope) := do
  let (args, s) := declareVars s e.args
  let (results, s) := declareVars s e.results
  let args ← (VarList.ofList args).mapError .semantic
  let results ← (VarList.ofList results).mapError .semantic
  let (m, s) := s.declare e.name args results e.oneway [] .empty
  let native ← (BodyTable.ofList .native e.native).mapError .reservation
  let managed ← (BodyTable.ofList .managed e.managed).mapError .reservation
  let m ← m.reserve e.serial native managed
  return (m, s)

def declareAll (s : Scope) : List Entry → Except Failure (List Method × Scope)
  | [] => .ok ([], s)
  | e :: rest => do
    let (m, s) ← e.declare s
    let (ms, s) ← declareAll s rest
    return (m :: ms, s)

/-- The reserved methods of an interface by serial, not yet analysed. -/
def draft (s : Scope) (interface : String) (chain : List String) :
    Except Failure (List Method × Scope) :=
  declareAll s (entries interface chain)

/-- The reserved methods of an interface by serial, and the scope after their analysis. -/
def build (s : Scope) (interface : String) (chain : List String) :
    Except Failure (List Method × Scope) := do
  let (ms, s) ← draft s interface chain
  let report := s.analyzeAll ms
  report.verdict.mapError .semantic
  return (ms, report.scope)

def find? (ms : List Method) (name : String) : Option Method := ms.find? fun m => m.name == name

end Idl.Catalogue
