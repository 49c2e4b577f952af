import Idl.BodyTable
import Idl.Signature

/-!
# Methods

A method is a declaration at a place, together with its standing: an ordinary method may be
numbered, a reserved one has its number and its bodies from the reservation. Either is decided
once. Copies of a method share the declaration and stand on their own.
-/

namespace Idl

structure Declaration where
  id : Nat
  name : String
  args : VarList
  results : VarList
  oneway : Bool
  annotations : List Annotation

inductive Standing where
  | ordinary (serial : Option UInt32)
  | reserved (serial : UInt32) (native managed : BodyTable)

structure Method where
  declaration : Declaration
  location : Location
  standing : Standing

def Scope.declare (s : Scope) (name : String) (args results : VarList) (oneway : Bool)
    (annotations : List Annotation) (location : Location) : Method × Scope :=
  let (id, s) := s.mint
  (⟨⟨id, name, args, results, oneway, annotations⟩, location, .ordinary none⟩, s)

namespace Method

def name (m : Method) : String := m.declaration.name

def args (m : Method) : List Var := m.declaration.args.vars

def results (m : Method) : List Var := m.declaration.results.vars

def annotations (m : Method) : List Annotation := m.declaration.annotations

def oneway (m : Method) : Bool := m.declaration.oneway

def isReserved (m : Method) : Bool :=
  match m.standing with
  | .ordinary _ => false
  | .reserved .. => true

def serial? (m : Method) : Option UInt32 :=
  match m.standing with
  | .ordinary serial => serial
  | .reserved serial _ _ => some serial

def number (m : Method) (serial : UInt32) : Except Refusal Method :=
  match m.standing with
  | .ordinary none => .ok { m with standing := .ordinary (some serial) }
  | .ordinary (some earlier) => .error (.serialAlreadySet m.name earlier)
  | .reserved .. => .error (.serialOnReserved m.name)

def reserve (m : Method) (serial : UInt32) (native managed : BodyTable) : Except Failure Method :=
  if native.backend ≠ .native then .error (.misuse (.wrongTable .native))
  else if managed.backend ≠ .managed then .error (.misuse (.wrongTable .managed))
  else
    match m.standing with
    | .ordinary none => .ok { m with standing := .reserved serial native managed }
    | .ordinary (some earlier) => .error (.reservation (.serialAlreadySet m.name earlier))
    | .reserved .. => .error (.reservation (.alreadyReserved m.name))

/-- An ordinary method of the same declaration, without a number or a place. -/
def sibling (m : Method) : Method := ⟨m.declaration, .empty, .ordinary none⟩

def sameDeclaration (m other : Method) : Bool := m.declaration.id == other.declaration.id

/-- The bodies that a reserved method brings for a backend. -/
def table (m : Method) (backend : Backend) : Except Misuse BodyTable :=
  match m.standing, backend with
  | .reserved _ native _, .native => .ok native
  | .reserved _ _ managed, .managed => .ok managed
  | .ordinary _, _ => .error (.notReserved m.name)

/-- What the emitters see of the method in a scope. -/
def signature (s : Scope) (m : Method) : Signature where
  name := m.name
  args := m.args.map (Var.param s)
  results := m.results.map (Var.param s)
  annotations := m.annotations

def debugName : String := "debug"

/-- The reserved method `debug` does not show its types to the managed backend. -/
def hidesTypes (m : Method) : Bool := m.isReserved && m.name == debugName

def hasManagedForm (s : Scope) (m : Method) : Bool :=
  m.hidesTypes || (m.signature s).hasManagedForm

end Method
end Idl
