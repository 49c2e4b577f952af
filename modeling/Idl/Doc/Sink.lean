import Idl.Doc
import Idl.Text.Split

/-!
# Running documents

A sink holds the text written so far, the nesting level and whether the next character begins a
line. Indentation is written late, just before the first character of a line, so empty lines
stay empty.
-/

namespace Idl

structure Sink where
  /-- Spaces for one level. -/
  width : Nat
  output : String
  level : Nat
  atLineStart : Bool
  deriving DecidableEq, Repr

namespace Sink

def start (width : Nat) : Sink := ⟨width, "", 0, true⟩

def indentation (k : Sink) : String := String.ofList (List.replicate (k.level * k.width) ' ')

def pushLine (k : Sink) (line : List Char) : Sink :=
  if line = [] then k
  else if k.atLineStart then
    { k with output := k.output ++ k.indentation ++ String.ofList line, atLineStart := false }
  else { k with output := k.output ++ String.ofList line }

def breakLine (k : Sink) : Sink := { k with output := k.output ++ "\n", atLineStart := true }

def pushLines (k : Sink) : List Char × List (List Char) → Sink
  | (line, more) => more.foldl (fun k line => k.breakLine.pushLine line) (k.pushLine line)

def push (k : Sink) (s : String) : Sink := k.pushLines (Text.lines s.toList)

/-- Text may be cut anywhere. -/
theorem pushLine_append (k : Sink) (s t : List Char) :
    k.pushLine (s ++ t) = (k.pushLine s).pushLine t := by
  cases s with
  | nil => simp [pushLine]
  | cons c s =>
    cases t with
    | nil => simp [pushLine]
    | cons d t =>
      have hst : String.ofList (c :: (s ++ d :: t)) =
          String.ofList (c :: s) ++ String.ofList (d :: t) := by
        rw [← String.ofList_append, List.cons_append]
      by_cases h : k.atLineStart
      · simp only [pushLine, h, hst, List.cons_append, reduceCtorEq, if_true, if_false,
          String.append_assoc, Bool.false_eq_true]
      · simp only [pushLine, h, hst, List.cons_append, reduceCtorEq, if_false, String.append_assoc,
          Bool.false_eq_true]

theorem pushLines_lines_cons (k : Sink) (c : Char) (s : List Char) :
    k.pushLines (Text.lines (c :: s)) =
      (if c = '\n' then k.breakLine else k.pushLine [c]).pushLines (Text.lines s) := by
  by_cases h : c = '\n'
  · simp [Text.lines, h, pushLines, pushLine]
  · simp only [Text.lines, h, if_false, pushLines]
    rw [← List.singleton_append, pushLine_append]

theorem pushLines_lines_append (k : Sink) (s t : List Char) :
    k.pushLines (Text.lines (s ++ t)) =
      (k.pushLines (Text.lines s)).pushLines (Text.lines t) := by
  induction s generalizing k with
  | nil => simp [Text.lines, pushLines, pushLine]
  | cons c s ih => rw [List.cons_append, pushLines_lines_cons, pushLines_lines_cons, ih]

theorem push_append (k : Sink) (s t : String) : k.push (s ++ t) = (k.push s).push t := by
  simp [push, pushLines_lines_append]

@[simp] theorem push_empty (k : Sink) : k.push "" = k := by
  simp [push, Text.lines, pushLines, pushLine]

def enter (k : Sink) : Sink := { k with level := k.level + 1 }

def leave (k : Sink) : Sink := { k with level := k.level - 1 }

@[simp] theorem leave_enter (k : Sink) : k.enter.leave = k := rfl

end Sink

namespace Doc

def run : Doc → Sink → Sink
  | empty, k => k
  | text s, k => k.push s
  | seq first second, k => second.run (first.run k)
  | nest body, k => (body.run k.enter).leave

@[simp] theorem run_append (d e : Doc) (k : Sink) : (d ++ e).run k = e.run (d.run k) := rfl

def standardWidth : Nat := 4

/-- What the document writes on its own. -/
def toText (d : Doc) : String := (d.run (.start standardWidth)).output

def nestBy : Nat → Doc → Doc
  | 0, d => d
  | levels + 1, d => nest (nestBy levels d)

end Doc
end Idl
