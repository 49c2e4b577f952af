import Idl.Request.Basic
import Idl.Text.Split

/-!
# Requests from arguments

Arguments are read from left to right. A value joined to its option (`--name=x`, `-ox`, `-o=x`) is
taken at once. A value in an argument of its own is held back until the next option has been
recognised, so a fault in that argument is found before one in the value. An option that takes
one value, and a switch, may be given once.
-/

namespace Idl

inductive Setting where
  | name | arg | result | note | owner | backend | reserved | output
  deriving DecidableEq, Repr

inductive Switch where
  | oneway | namespaces | verbose | help
  deriving DecidableEq, Repr

inductive ArgumentError where
  | unknownArgument
  | invalidValue
  | tooManyValues
  | conflict
  | missingRequired
  /-- Not a fault: help was asked for. -/
  | helpRequested
  deriving DecidableEq, Repr

namespace Setting

def all : List Setting := [name, arg, result, note, owner, backend, reserved, output]

/-- The option is written `--` and its word. -/
def word : Setting → String
  | name => "name"
  | arg => "arg"
  | result => "result"
  | note => "annotation"
  | owner => "class"
  | backend => "backend"
  | reserved => "reserved"
  | output => "output"

def ofWord? (word : List Char) : Option Setting := all.find? fun o => o.word.toList == word

def ofLetter? (c : Char) : Option Setting := if c = 'o' then some output else none

theorem ofWord?_word (o : Setting) : ofWord? o.word.toList = some o := by cases o <;> decide

end Setting

namespace Switch

def all : List Switch := [oneway, namespaces, verbose, help]

def word : Switch → String
  | oneway => "oneway"
  | namespaces => "namespaces"
  | verbose => "verbose"
  | help => "help"

def ofWord? (word : List Char) : Option Switch := all.find? fun o => o.word.toList == word

def ofLetter? (c : Char) : Option Switch :=
  if c = 'v' then some verbose else if c = 'h' then some help else none

theorem ofWord?_word (o : Switch) : ofWord? o.word.toList = some o := by cases o <;> decide

end Switch

/-- A request as far as its arguments have been read. -/
structure PartialRequest where
  request : Request
  backendGiven : Bool
  /-- The option of the last argument and its value, if that was an argument of its own. -/
  held : Option (Setting × Option String)
  deriving DecidableEq, Repr

namespace PartialRequest

def blank : PartialRequest := ⟨.blank, false, none⟩

def taken (p : PartialRequest) : Setting → Bool
  | .name => p.request.name.isSome
  | .owner => p.request.owner.isSome
  | .backend => p.backendGiven
  | .reserved => p.request.reserved.isSome
  | .output => p.request.output.isSome
  | .arg | .result | .note => false

def setValue (p : PartialRequest) (value : String) : Setting → Except ArgumentError PartialRequest
  | .name => .ok { p with request.name := some value }
  | .arg => .ok { p with request.args := p.request.args ++ [value] }
  | .result => .ok { p with request.results := p.request.results ++ [value] }
  | .note => .ok { p with request.annotations := p.request.annotations ++ [value] }
  | .owner => .ok { p with request.owner := some value }
  | .reserved => .ok { p with request.reserved := some value }
  | .backend =>
    match Selection.ofName? value with
    | some choice => .ok { p with request.backend := choice, backendGiven := true }
    | none => .error .invalidValue
  | .output =>
    if value = "" then .error .invalidValue else .ok { p with request.output := some value }

def give (p : PartialRequest) (o : Setting) (value : String) :
    Except ArgumentError PartialRequest :=
  if p.taken o then .error .conflict else p.setValue value o

def settle (p : PartialRequest) : Except ArgumentError PartialRequest :=
  match p.held with
  | none => .ok p
  | some (_, none) => .error .invalidValue
  | some (o, some value) => give { p with held := none } o value

def turnOn (p : PartialRequest) : Switch → Except ArgumentError PartialRequest
  | .oneway => if p.request.oneway then .error .conflict else .ok { p with request.oneway := true }
  | .namespaces =>
    if p.request.namespaces then .error .conflict else .ok { p with request.namespaces := true }
  | .verbose =>
    if p.request.verbose then .error .conflict else .ok { p with request.verbose := true }
  | .help => .error .helpRequested

/-- An option, with its value if that is joined to it. -/
def readSetting (p : PartialRequest) (o : Setting) (value : Option String) :
    Except ArgumentError PartialRequest := do
  let p ← p.settle
  match value with
  | some value => p.give o value
  | none => return { p with held := some (o, none) }

def readSwitch (p : PartialRequest) (o : Switch) : Except ArgumentError PartialRequest := do
  let p ← p.settle
  p.turnOn o

/-- What follows two dashes. -/
def readLong (p : PartialRequest) (s : List Char) : Except ArgumentError PartialRequest :=
  let (word, value) :=
    match Text.splitAtFirst? ['='] s with
    | some (word, value) => (word, some (String.ofList value))
    | none => (s, none)
  match Setting.ofWord? word, Switch.ofWord? word with
  | some o, _ => p.readSetting o value
  | none, some o => if value.isSome then .error .tooManyValues else p.readSwitch o
  | none, none => .error .unknownArgument

/-- What follows one dash: switches by their letters, then at most one option and its value. -/
def readShort (p : PartialRequest) : List Char → Except ArgumentError PartialRequest
  | [] => .ok p
  | c :: rest =>
    match Setting.ofLetter? c, Switch.ofLetter? c with
    | some o, _ =>
      p.readSetting o <|
        match rest with
        | [] => none
        | '=' :: value => some (String.ofList value)
        | value => some (String.ofList value)
    | none, some o => do
      let p ← p.readSwitch o
      p.readShort rest
    | none, none => .error .unknownArgument

/-- An argument without a dash is the value of the option before it, or nothing at all. -/
def readPlain (p : PartialRequest) (s : String) : Except ArgumentError PartialRequest :=
  match p.held with
  | some (o, none) => .ok { p with held := some (o, some s) }
  | _ => .error .unknownArgument

def read (p : PartialRequest) (s : String) : Except ArgumentError PartialRequest :=
  match s.toList with
  | '-' :: '-' :: rest => p.readLong rest
  | '-' :: c :: rest => p.readShort (c :: rest)
  | _ => p.readPlain s

/-- Two dashes alone end the options, and no argument may follow. -/
def readAll (p : PartialRequest) : List String → Except ArgumentError PartialRequest
  | [] => p.settle
  | s :: rest =>
    if s = "--" then if rest.isEmpty then p.settle else .error .unknownArgument
    else do
      let p ← p.read s
      p.readAll rest

end PartialRequest

/-- The request that the arguments make. It must name a method or an interface. -/
def Request.ofArguments (arguments : List String) : Except ArgumentError Request := do
  let p ← PartialRequest.blank.readAll arguments
  if p.request.name.isNone && p.request.reserved.isNone then .error .missingRequired
  else return p.request

end Idl
