import Idl.Text.Blank
import Idl.Ty.Basic

/-!
# Type expressions

A type expression is a name, or `vec<`, an expression and `>`. Blank characters may stand around
each. Any text is a type expression: what is not a vector is a name.
-/

namespace Idl

inductive TypeExpr where
  | name (name : String)
  | vec (element : TypeExpr)
  deriving DecidableEq, Repr

namespace TypeExpr

/-- What stands between `vec<` and a closing `>`. -/
def insideVec? : List Char → Option (List Char)
  | 'v' :: 'e' :: 'c' :: '<' :: rest =>
    if rest.getLast? = some '>' then some rest.dropLast else none
  | _ => none

theorem eq_of_insideVec? {s inner : List Char} (h : insideVec? s = some inner) :
    s = ['v', 'e', 'c', '<'] ++ inner ++ ['>'] := by
  unfold insideVec? at h
  split at h
  · split at h
    · next rest hlast =>
      obtain ⟨front, rfl⟩ := List.getLast?_eq_some_iff.1 hlast
      cases h
      simp
    · cases h
  · cases h

theorem insideVec?_eq_some_iff {s inner : List Char} :
    insideVec? s = some inner ↔ s = ['v', 'e', 'c', '<'] ++ inner ++ ['>'] := by
  refine ⟨eq_of_insideVec?, ?_⟩
  rintro rfl
  simp [insideVec?]

def read (s : List Char) : TypeExpr :=
  match _h : insideVec? (Text.trim s) with
  | some inner => vec (read inner)
  | none => name (String.ofList (Text.trim s))
termination_by s.length
decreasing_by
  have := Text.length_trim_le s
  rw [eq_of_insideVec? _h] at this
  simp at this
  omega

def text : TypeExpr → String
  | name n => n
  | vec e => "vec<" ++ e.text ++ ">"

/-- The type that an expression stands for, with `r` for the name inside. -/
def withRef (r : Ref) : TypeExpr → Ty
  | name _ => .ref r
  | vec e => .vec (e.withRef r)

/-- The name inside all vectors. -/
def coreName : TypeExpr → String
  | name n => n
  | vec e => e.coreName

/-- The number of vectors around the name. -/
def depth : TypeExpr → Nat
  | name _ => 0
  | vec e => e.depth + 1

theorem core_withRef (e : TypeExpr) (r : Ref) : (e.withRef r).core = .ref r := by
  induction e with
  | name n => rfl
  | vec e ih => exact ih

theorem depth_withRef (e : TypeExpr) (r : Ref) : (e.withRef r).depth = e.depth := by
  induction e with
  | name n => rfl
  | vec e ih => exact congrArg (· + 1) ih

end TypeExpr
end Idl
