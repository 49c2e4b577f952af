import Idl.Role

/-!
# Requests

A request asks for the text of one declared method, of the reserved methods of an interface, or of
both, for one backend or for both.
-/

namespace Idl

inductive Selection where
  | native
  | managed
  | all
  deriving DecidableEq, Repr

namespace Selection

def includes : Selection → Backend → Bool
  | all, _ => true
  | native, backend => backend == .native
  | managed, backend => backend == .managed

def name : Selection → String
  | native => "native"
  | managed => "managed"
  | all => "all"

def ofName? (name : String) : Option Selection :=
  [native, managed, all].find? fun choice => choice.name == name

theorem ofName?_name (choice : Selection) : ofName? choice.name = some choice := by
  cases choice <;> decide

end Selection

structure Request where
  name : Option String
  /-- Each as `TYPE:NAME`. -/
  args : List String
  results : List String
  oneway : Bool
  annotations : List String
  owner : Option String
  namespaces : Bool
  backend : Selection
  /-- The interface whose reserved methods are wanted. -/
  reserved : Option String
  output : Option String
  verbose : Bool
  deriving DecidableEq, Repr

def Request.blank : Request where
  name := none
  args := []
  results := []
  oneway := false
  annotations := []
  owner := none
  namespaces := false
  backend := .all
  reserved := none
  output := none
  verbose := false

end Idl
