import Idl.Location
import Idl.Role

/-!
# What can go wrong

A diagnostic is a complaint about a declaration, a refusal one about numbering or reserving a
method, and a misuse a mistake of the calling program. `Failure` joins them with wrong requests
and with files that cannot be written. Each has its wording in one function `message`.
-/

namespace Idl

inductive Diagnostic where
  | unresolvedType (name : String) (location : Location)
  | duplicateName (name : String) (location : Location)
  | annotationRejected (name reason : String)
  | duplicateParameter (name parameter : String)
  | emptyMethodName
  | onewayWithResults
  /-- Tells in which method the cause was found. -/
  | inMethod (method : String) (location : Location) (cause : Diagnostic)
  deriving DecidableEq, Repr

namespace Diagnostic

def message : Diagnostic → String
  | unresolvedType name location => "undefined type '" ++ name ++ "' at " ++ location.text
  | duplicateName name location => "duplicate name '" ++ name ++ "' at " ++ location.text
  | annotationRejected name reason => "invalid annotation '@" ++ name ++ "': " ++ reason
  | duplicateParameter name parameter =>
    "duplicate parameter '" ++ parameter ++ "' in annotation '@" ++ name ++ "'"
  | emptyMethodName => "method name must not be empty"
  | onewayWithResults => "oneway methods cannot have results"
  | inMethod method location cause =>
    "in method '" ++ method ++ "' declared at " ++ location.text ++ ": " ++ cause.message

/-- The innermost diagnostic. -/
def root : Diagnostic → Diagnostic
  | inMethod _ _ cause => cause.root
  | d => d

/-- The messages of the causes inside, outermost first. -/
def causes : Diagnostic → List String
  | inMethod _ _ cause => cause.message :: cause.causes
  | _ => []

end Diagnostic

abbrev Verdict := Except Diagnostic Unit

inductive Refusal where
  | serialAlreadySet (method : String) (serial : UInt32)
  | serialOnReserved (method : String)
  | alreadyReserved (method : String)
  | stubImplOnManaged
  | stubShadowsStubImpl
  deriving DecidableEq, Repr

def Refusal.message : Refusal → String
  | serialAlreadySet method serial =>
    "serial id of '" ++ method ++ "' is already " ++ Text.hex serial.toNat
  | serialOnReserved method =>
    "'" ++ method ++ "' is reserved; its serial id comes from the reservation"
  | alreadyReserved method => "'" ++ method ++ "' is already reserved"
  | stubImplOnManaged =>
    "managed implementations cannot use the stub-impl role; use the interface role"
  | stubShadowsStubImpl => "native stub role would shadow the stub-impl role"

inductive Misuse where
  | wrongTable (wanted : Backend)
  | notReserved (method : String)
  deriving DecidableEq, Repr

def Misuse.message : Misuse → String
  | wrongTable wanted => wanted.name ++ " table built for the wrong backend"
  | notReserved method =>
    "role dispatch on '" ++ method ++ "', which is not a reserved method"

inductive Usage where
  | emptyMethodName
  | malformedVariable (text : String)
  | other (text : String)
  deriving DecidableEq, Repr

def Usage.message : Usage → String
  | emptyMethodName => "method name must not be empty"
  | malformedVariable text => "expected TYPE:NAME, found '" ++ text ++ "'"
  | other text => text

inductive FileError where
  /-- Found in the path itself: no directory is asked. -/
  | nulInPath
  | noSuchDirectory
  | isDirectory
  | nameTooLong
  | other (text : String)
  deriving DecidableEq, Repr

def FileError.message : FileError → String
  | nulInPath => "file name contained an unexpected NUL byte"
  | noSuchDirectory => "No such file or directory (os error 2)"
  | isDirectory => "Is a directory (os error 21)"
  | nameTooLong => "File name too long (os error 36)"
  | other text => text

inductive Failure where
  | semantic (diagnostic : Diagnostic)
  | reservation (refusal : Refusal)
  | usage (error : Usage)
  | file (error : FileError)
  | misuse (error : Misuse)
  deriving DecidableEq, Repr

namespace Failure

def message : Failure → String
  | semantic d => "semantic error: " ++ d.message
  | reservation r => "reserved method misuse: " ++ r.message
  | usage e => "invalid usage: " ++ e.message
  | file e => "I/O error: " ++ e.message
  | misuse e => e.message

/-- The messages of what lies under a failure, outermost first. -/
def causes : Failure → List String
  | semantic d => d.message :: d.causes
  | reservation r => [r.message]
  | _ => []

def root? : Failure → Option Diagnostic
  | semantic d => some d.root
  | _ => none

end Failure
end Idl
