import Idl.Text.Split
import Idl.Var

/-!
# Reading a variable

A variable is declared as `TYPE:NAME`. The last colon divides the two, since a type may hold
colons and a name may not. Neither part may be blank, and blank characters around the name are
dropped.
-/

namespace Idl.Var

/-- The text of the type, as it stands, and the name. -/
def split? (s : List Char) : Option (List Char × List Char) :=
  match Text.splitAtLast? ':' s with
  | some (type, name) =>
    if Text.isBlankText type || Text.isBlankText name then none else some (type, Text.trim name)
  | none => none

def read (s : Scope) (text : String) (location : Location) : Except Failure (Var × Scope) :=
  match split? text.toList with
  | some (type, name) =>
    let (t, s) := s.instantiate (TypeExpr.read type) location
    .ok (⟨String.ofList name, t, location⟩, s)
  | none => .error (.usage (.malformedVariable text))

end Idl.Var
