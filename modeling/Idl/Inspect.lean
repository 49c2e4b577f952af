import Idl.BodyTable
import Idl.Scope
import Idl.Text.Quoted

/-!
# Inspection

Scopes, types and body tables can be shown with their insides, as a name and its fields between
braces. These texts are for people who look for a fault; nothing reads them.
-/

namespace Idl.Inspect

def separated (separator : String) (texts : List String) : String := separator.intercalate texts

def record (name : String) (fields : List (String × String)) : String :=
  name ++ " \x7b " ++ separated ", " (fields.map fun field => field.1 ++ ": " ++ field.2) ++ " \x7d"

def truth (b : Bool) : String := if b then "true" else "false"

def scope (s : Scope) : String :=
  record "TypeRegistry" [("types", "[" ++ separated ", " (s.names.map Text.quoted) ++ "]")]

def leaf : Leaf → String
  | .scalar k => record "ScalarType" [("kind", k.name.capitalize)]
  | .string => "StringType"
  | .handle => "HandleType"
  | .foreign f => f.name

def type (s : Scope) : Ty → String
  | .leaf l => leaf l
  | .vec t => record "VecType" [("element", type s t)]
  | .ref r => record "TypeRef" [("name", Text.quoted r.name), ("resolved", truth (s.isResolved r))]

def backend : Backend → String
  | .native => "Native"
  | .managed => "Managed"

def role : Role → String
  | .interface => "Interface"
  | .proxy => "Proxy"
  | .stub => "Stub"
  | .stubImpl => "StubImpl"
  | .passthrough => "Passthrough"

def body : Body → String
  | .emit _ => "Emit(..)"
  | .empty => "Empty"

def bodies (t : BodyTable) : String :=
  let entries := Role.all.filterMap fun r => (t.get? r).map fun b => role r ++ ": " ++ body b
  "\x7b" ++ separated ", " entries ++ "\x7d"

def table (t : BodyTable) : String :=
  record "ImplTable" [("backend", backend t.backend), ("bodies", bodies t)]

end Idl.Inspect
