import Idl.Text.Digits

/-!
# Places in a text

A location is a span in a file. A declaration that stands in no file has the empty location,
which is written `<unknown>`.
-/

namespace Idl

structure Position where
  line : Nat
  column : Nat
  deriving DecidableEq, Repr

namespace Position

def origin : Position := ⟨0, 0⟩

def text (p : Position) : String := Text.decimal p.line ++ "." ++ Text.decimal p.column

/-- Line by line, and by column within a line. -/
def le (p q : Position) : Bool :=
  p.line < q.line || (p.line == q.line && p.column ≤ q.column)

def sort (ps : List Position) : List Position := ps.mergeSort le

end Position

structure Location where
  file : Option String
  first : Position
  last : Position
  deriving DecidableEq, Repr

namespace Location

def empty : Location := ⟨none, .origin, .origin⟩

def point (file : String) (line column : Nat) : Location :=
  ⟨some file, ⟨line, column⟩, ⟨line, column⟩⟩

def isEmpty (l : Location) : Bool := l = empty

def text (l : Location) : String :=
  if l.isEmpty then "<unknown>"
  else l.file.getD "<input>" ++ ":" ++ l.first.text ++ "-" ++ l.last.text

end Location
end Idl
