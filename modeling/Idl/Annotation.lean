import Idl.Doc
import Idl.Failure

/-!
# Annotations

A named annotation is written `@name` or `@name(key="value", key={"a", "b"})`. Its name must be an
identifier and its parameter names must differ; nothing is asked of the values. An embedder may
supply annotations with checks and a source form of their own.
-/

namespace Idl

def isIdentifierStart (c : Char) : Bool := c.isAlpha || c == '_'

def isIdentifierRest (c : Char) : Bool := c.isAlphanum || c == '_'

/-- An ASCII letter or underscore, then ASCII letters, digits and underscores. -/
def isIdentifier (name : String) : Bool :=
  match name.toList with
  | [] => false
  | c :: rest => isIdentifierStart c && rest.all isIdentifierRest

structure Annotation.Param where
  name : String
  values : List String
  deriving DecidableEq, Repr

/-- An annotation supplied by an embedder, who may tell it by its tag. -/
structure Annotation.Foreign where
  name : String
  evaluation : Verdict
  validation : Verdict
  source : Doc
  tag : Option String

inductive Annotation where
  | named (name : String) (params : List Annotation.Param)
  | foreign (a : Annotation.Foreign)

namespace Annotation

def name : Annotation → String
  | named name _ => name
  | foreign a => a.name

/-- The first name that stands among the names before it. -/
def firstRepeat? (seen : List String) : List String → Option String
  | [] => none
  | name :: rest => if name ∈ seen then some name else firstRepeat? (name :: seen) rest

def notAnIdentifier : String := "name is not an identifier"

def evaluate : Annotation → Verdict
  | named _ _ => .ok ()
  | foreign a => a.evaluation

def validate : Annotation → Verdict
  | named name params =>
    if isIdentifier name then
      match firstRepeat? [] (params.map Param.name) with
      | none => .ok ()
      | some param => .error (.duplicateParameter name param)
    else .error (.annotationRejected name notAnIdentifier)
  | foreign a => a.validation

def valueSource (value : String) : Doc := Doc.text ("\"" ++ value ++ "\"")

def Param.source (p : Param) : Doc :=
  Doc.text (p.name ++ "=") ++
    match p.values with
    | [value] => valueSource value
    | values => Doc.text "\x7b" ++ Doc.join ", " (values.map valueSource) ++ Doc.text "\x7d"

def source : Annotation → Doc
  | named name [] => Doc.text ("@" ++ name)
  | named name params =>
    Doc.text ("@" ++ name ++ "(") ++ Doc.join ", " (params.map Param.source) ++ Doc.text ")"
  | foreign a => a.source

end Annotation
end Idl
