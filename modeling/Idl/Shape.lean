import Idl.Scope

/-!
# Shapes and their spelling

The shape of a type in a scope is the type with its resolved references replaced by their targets.
It ends in a leaf, or in a reference that is still open. Every spelling is a function of the
shape, so an alias is spelled as its target.
-/

namespace Idl

inductive Shape where
  | leaf (l : Leaf)
  | pending (r : Ref)
  | vec (element : Shape)

namespace Ty

/-- The shape of a type, given that of each reference. -/
def shapeWith (f : Ref → Shape) : Ty → Shape
  | leaf l => .leaf l
  | vec t => .vec (t.shapeWith f)
  | ref r => f r

end Ty

namespace Scope

/-- Follows at most `hops` resolved references. -/
def refShape (s : Scope) : Nat → Ref → Shape
  | 0, r => .pending r
  | hops + 1, r =>
    match s.target? r with
    | none => .pending r
    | some t => t.shapeWith (s.refShape hops)

def shape (s : Scope) (t : Ty) : Shape := t.shapeWith (s.refShape s.targets.length)

end Scope

namespace Shape

/-- The leaf or open reference inside all vectors. -/
def core : Shape → Ty.Core
  | leaf l => .leaf l
  | .pending r => .ref r
  | vec e => e.core

/-- An open reference is unresolved; otherwise the leaf decides. -/
def validate : Shape → Verdict
  | leaf l => l.validate
  | .pending r => .error r.unresolved
  | vec e => e.validate

def returnable : Shape → Bool
  | leaf l => l.returnable
  | .pending _ | vec _ => false

def nativeResult (qualified : Bool) : Shape → String
  | leaf l => l.nativeResult qualified
  | .pending r => r.name
  | vec e => qualifier qualified ++ "hidl_vec<" ++ e.nativeResult qualified ++ ">"

def nativeArgument (qualified : Bool) : Shape → String
  | leaf l => l.nativeArgument qualified
  | .pending r => r.name
  | vec e => constReference ((vec e).nativeResult qualified)

def boxed : Shape → String
  | leaf l => l.boxed
  | .pending r => r.name
  | vec e => "java.util.ArrayList<" ++ e.boxed ++ ">"

def managed : Shape → String
  | leaf l => l.managed
  | .pending r => r.name
  | vec e => (vec e).boxed

def default : Shape → String
  | leaf l => l.default
  | .pending _ | vec _ => "null"

def hasManagedForm : Shape → Bool
  | leaf l => l.hasManagedForm
  | .pending _ => false
  | vec e => e.hasManagedForm

end Shape

namespace Scope

/-- Checks a type as far as it has been resolved. -/
def validate (s : Scope) (t : Ty) : Verdict := (s.shape t).validate

end Scope
end Idl
