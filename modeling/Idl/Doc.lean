/-!
# Documents

A document is text with nesting. It is built from pieces of text, sequences and nested parts, and
knows nothing of indentation widths: those belong to the sink it is run on.
-/

namespace Idl

inductive Doc where
  | empty
  | text (s : String)
  | seq (first second : Doc)
  /-- One level deeper than its surroundings. -/
  | nest (body : Doc)
  deriving DecidableEq, Repr

namespace Doc

instance : Append Doc := ⟨seq⟩

instance : Coe String Doc := ⟨text⟩

def newline : Doc := text "\n"

def concat (ds : List Doc) : Doc := ds.foldr seq empty

/-- The documents in order, with the separator before each but the first. -/
def join (separator : String) : List Doc → Doc
  | [] => empty
  | d :: ds => d ++ concat (ds.map fun next => text separator ++ next)

def opening (header : String) : Doc :=
  if header = "" then text "\x7b\n" else text header ++ text " \x7b\n"

def closing : Doc := text "\x7d\n"

def block (header : String) (body : Doc) : Doc := opening header ++ nest body ++ closing

/-- One piece of text in which each line ends with a line feed. -/
def ofLines (lines : List String) : Doc := text (String.join (lines.map (· ++ "\n")))

end Doc
end Idl
