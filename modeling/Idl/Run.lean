import Idl.Directory
import Idl.Rendering
import Idl.Request.Arguments

/-!
# Running a request

A plan lists the effects of a process, each of which may fail and decide on the next. All text is
rendered before the first effect, so a request that fails leaves no output. `simulate` performs a
plan on a directory that is a value; the process performs the same plan.
-/

namespace Idl

inductive Effect where
  | print (text : String)
  | write (path text : String)
  /-- Writes on the error stream. -/
  | complain (text : String)
  /-- Tells how the command is used, on the error stream unless that was asked for. -/
  | explain (asked : Bool)
  deriving DecidableEq, Repr

/-- What a process reads and leaves behind. How the command is used is not part of it. -/
structure Surroundings where
  directory : Directory
  printed : String
  complaint : Option String

namespace Surroundings

def untouched (d : Directory) : Surroundings := ⟨d, "", none⟩

/-- What goes wrong with the effect, if anything, and what it leaves. -/
def after (w : Surroundings) : Effect → Option FileError × Surroundings
  | .print text => (none, { w with printed := w.printed ++ text })
  | .write path text =>
    match w.directory.write path text with
    | .ok d => (none, { w with directory := d })
    | .error e => (some e, w)
  | .complain text => (none, { w with complaint := some (w.complaint.getD "" ++ text) })
  | .explain _ => (none, w)

end Surroundings

/-- The effects of a process, in order, and what comes of them. -/
inductive Plan (α : Type) where
  | done (result : α)
  | perform (effect : Effect) (next : Option FileError → Plan α)

namespace Plan

variable {α β : Type}

def bind : Plan α → (α → Plan β) → Plan β
  | done result, rest => rest result
  | perform effect next, rest => perform effect fun error => (next error).bind rest

def simulate : Plan α → Surroundings → α × Surroundings
  | done result, w => (result, w)
  | perform effect next, w => (next (w.after effect).1).simulate (w.after effect).2

theorem simulate_bind (p : Plan α) (rest : α → Plan β) (w : Surroundings) :
    (p.bind rest).simulate w = (rest (p.simulate w).1).simulate (p.simulate w).2 := by
  induction p generalizing w with
  | done result => rfl
  | perform effect next ih => exact ih _ _

end Plan

structure Outcome where
  directory : Directory
  printed : String
  failure : Option Failure

namespace Request

def effect (r : Request) : Except Failure Effect := do
  let text ← r.render
  return match r.output with
    | some path => .write path text
    | none => .print text

def plan (r : Request) : Plan (Option Failure) :=
  match r.effect with
  | .ok effect => .perform effect fun error => .done (error.map .file)
  | .error failure => .done (some failure)

def run (r : Request) (d : Directory) : Outcome :=
  let (failure, w) := r.plan.simulate (.untouched d)
  ⟨w.directory, w.printed, failure⟩

end Request

/-- The process code for arguments that make no request. -/
def ArgumentError.code : ArgumentError → UInt32
  | helpRequested => 0
  | _ => 2

def Failure.errorLine (failure : Failure) : String := "error: " ++ failure.message ++ "\n"

/-- The whole process, up to its code: 0 is success, 1 a failed request, 2 arguments that make
none. -/
def Plan.ofArguments (arguments : List String) : Plan UInt32 :=
  match Request.ofArguments arguments with
  | .error e => .perform (.explain (e = .helpRequested)) fun _ => .done e.code
  | .ok r => r.plan.bind fun
    | none => .done 0
    | some failure => .perform (.complain failure.errorLine) fun _ => .done 1

structure Exit extends Surroundings where
  code : UInt32

def Exit.ofArguments (arguments : List String) (d : Directory) : Exit :=
  let (code, w) := (Plan.ofArguments arguments).simulate (.untouched d)
  ⟨w, code⟩

end Idl
