import Idl.Run

/-!
# The command

Performs the plan that the arguments make.
-/

namespace Idl

def usageText : String :=
  String.join <|
    ["Usage: hidl-sig [OPTIONS]", ""].map (· ++ "\n") ++
    (Setting.all.map fun o => "      --" ++ o.word ++ " <VALUE>\n") ++
    Switch.all.map fun o => "      --" ++ o.word ++ "\n"

def FileError.ofSystem : IO.Error → FileError
  | .noFileOrDirectory .. => .noSuchDirectory
  | .inappropriateType .. => .isDirectory
  | e => .other (toString e)

def Effect.perform : Effect → IO (Option FileError)
  | .print text => do
    IO.print text
    return none
  | .write path text => do
    try
      IO.FS.writeFile path text
      return none
    catch e => return some (.ofSystem e)
  | .complain text => do
    IO.eprint text
    return none
  | .explain asked => do
    if asked then IO.print usageText else IO.eprint usageText
    return none

def Plan.carryOut {α : Type} : Plan α → IO α
  | .done result => return result
  | .perform effect next => do
    let error ← effect.perform
    (next error).carryOut

end Idl

open Idl in
def main (arguments : List String) : IO UInt32 := (Plan.ofArguments arguments).carryOut
