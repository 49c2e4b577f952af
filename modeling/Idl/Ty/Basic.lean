import Idl.Ty.Leaf

/-!
# Types

A type is a leaf, a vector of a type, or a reference to a name. References are told apart by an
identity, so two of the same name can be resolved differently; copies of one reference are
resolved together. Under its vectors every type has a core, a leaf or a reference.
-/

namespace Idl

structure Ref where
  id : Nat
  name : String
  location : Location
  deriving DecidableEq, Repr

def Ref.unresolved (r : Ref) : Diagnostic := .unresolvedType r.name r.location

inductive Ty where
  | leaf (l : Leaf)
  | vec (element : Ty)
  | ref (r : Ref)

/-- A name under `depth` vectors. -/
def vecName : Nat → String → String
  | 0, name => name
  | depth + 1, name => "vec<" ++ vecName depth name ++ ">"

namespace Ty

inductive Core where
  | leaf (l : Leaf)
  | ref (r : Ref)

def Core.name : Core → String
  | leaf l => l.name
  | ref r => r.name

def core : Ty → Core
  | leaf l => .leaf l
  | vec t => t.core
  | ref r => .ref r

def depth : Ty → Nat
  | leaf _ | ref _ => 0
  | vec t => t.depth + 1

/-- The identities of the references in a type lie below its ceiling. -/
def ceiling (t : Ty) : Nat :=
  match t.core with
  | .leaf _ => 0
  | .ref r => r.id + 1

def scalar (k : Scalar) : Ty := leaf (.scalar k)

def string : Ty := leaf .string

def handle : Ty := leaf .handle

/-- The name used in diagnostics. A reference goes by the name it refers to. -/
def name : Ty → String
  | leaf l => l.name
  | vec t => "vec<" ++ t.name ++ ">"
  | ref r => r.name

theorem name_eq_vecName (t : Ty) : t.name = vecName t.depth t.core.name := by
  induction t with
  | leaf l => rfl
  | vec t ih => simp [name, depth, core, vecName, ih]
  | ref r => rfl

end Ty
end Idl
