import Idl.Failure
import Idl.Ty.Scalar

/-!
# Leaf types

A leaf is a type that is built from no other: a scalar, `string`, `handle`, or a type that an
embedder supplies. Only the last kind can fail a check of its own.
-/

namespace Idl

/-- Where the types of the native runtime live. -/
def runtimeNamespace : String := "::android::hardware::"

/-- What stands before a native runtime type, if names are to be qualified. -/
def qualifier (qualified : Bool) : String := if qualified then runtimeNamespace else ""

def constReference (type : String) : String := "const " ++ type ++ "&"

/-- A type supplied by an embedder, who may tell it by its tag. -/
structure Foreign where
  name : String
  evaluation : Verdict
  validation : Verdict
  returnable : Bool
  nativeArgument : Bool → String
  nativeResult : Bool → String
  managed : String
  boxed : String
  default : String
  hasManagedForm : Bool
  tag : Option String

/-- A foreign type of which only the spellings are given: it passes both checks, is handed over as
it is returned, and is boxed as it is. -/
def Foreign.spelled (name : String) (nativeResult : Bool → String) (managed : String) :
    Foreign where
  name := name
  evaluation := .ok ()
  validation := .ok ()
  returnable := false
  nativeArgument := nativeResult
  nativeResult := nativeResult
  managed := managed
  boxed := managed
  default := "null"
  hasManagedForm := true
  tag := none

inductive Leaf where
  | scalar (kind : Scalar)
  | string
  /-- A bundle of file descriptors, which the managed backend does not know. -/
  | handle
  | foreign (type : Foreign)

namespace Leaf

def name : Leaf → String
  | scalar k => k.name
  | string => "string"
  | handle => "handle"
  | foreign f => f.name

def evaluate : Leaf → Verdict
  | foreign f => f.evaluation
  | _ => .ok ()

def validate : Leaf → Verdict
  | foreign f => f.validation
  | _ => .ok ()

/-- Whether a single result of the type can be returned directly. -/
def returnable : Leaf → Bool
  | scalar _ => true
  | string | handle => false
  | foreign f => f.returnable

def nativeResult (qualified : Bool) : Leaf → String
  | scalar k => k.native
  | string => qualifier qualified ++ "hidl_string"
  | handle => qualifier qualified ++ "hidl_handle"
  | foreign f => f.nativeResult qualified

def nativeArgument (qualified : Bool) : Leaf → String
  | scalar k => k.native
  | string => constReference (string.nativeResult qualified)
  | handle => constReference (handle.nativeResult qualified)
  | foreign f => f.nativeArgument qualified

def managed : Leaf → String
  | scalar k => k.managed
  | string => "String"
  | handle => "android.os.NativeHandle"
  | foreign f => f.managed

def boxed : Leaf → String
  | scalar k => k.boxed
  | foreign f => f.boxed
  | l => l.managed

def default : Leaf → String
  | scalar k => k.default
  | string | handle => "null"
  | foreign f => f.default

def hasManagedForm : Leaf → Bool
  | scalar _ | string => true
  | handle => false
  | foreign f => f.hasManagedForm

end Leaf
end Idl
