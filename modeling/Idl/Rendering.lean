import Idl.Catalogue
import Idl.Doc.Sink
import Idl.Emit.Emitter
import Idl.Request.Declared

/-!
# Rendering

The text that answers a request is the declared method, then each reserved method after an empty
line and its serial. A method is written for the native backend first. The bodies that a reserved
method brings follow its signature, a section for each role.
-/

namespace Idl

namespace Emitter

/-- The section of a role; nothing if the method brings no body for it. -/
def roleSection (e : Emitter) (s : Scope) (m : Method) (role : Role) : Except Misuse Doc := do
  if ← e.brings m role then
    let body ← e.body s m role
    return Doc.text ("// " ++ e.backend.name ++ " " ++ role.name ++ "\n") ++ Doc.nest body
  else return Doc.empty

def roleSections (e : Emitter) (s : Scope) (m : Method) : Except Misuse Doc :=
  if m.isReserved then do return Doc.concat (← Role.all.mapM (e.roleSection s m))
  else return Doc.empty

end Emitter

namespace Request

def style (r : Request) : NativeStyle := ⟨r.namespaces, r.owner⟩

def nativePart (r : Request) (s : Scope) (m : Method) : Except Misuse Doc := do
  let sections ← (Emitter.native r.style).roleSections s m
  return Native.declaration r.style (m.signature s) ++ sections

def managedPart (s : Scope) (m : Method) : Except Misuse Doc :=
  if m.hasManagedForm s then do
    let sections ← Emitter.managed.roleSections s m
    return Doc.text "// managed arguments: " ++ Managed.args (m.signature s) ++
      Doc.text "\n// managed results: " ++ Managed.results (m.signature s) ++ Doc.newline ++
      sections
  else
    return Doc.text ("// " ++ m.name ++ " is not available to the managed backend\n")

def methodPart (r : Request) (s : Scope) (m : Method) : Except Misuse Doc := do
  let native ← if r.backend.includes .native then r.nativePart s m else pure Doc.empty
  let managed ← if r.backend.includes .managed then managedPart s m else pure Doc.empty
  return native ++ managed

def serialLine (m : Method) : Doc :=
  match m.serial? with
  | some serial => Doc.text ("// reserved " ++ Text.hexOfWidth 8 serial.toNat ++ "\n")
  | none => .empty

def reservedPart (r : Request) (s : Scope) (m : Method) : Except Misuse Doc := do
  let part ← r.methodPart s m
  return Doc.newline ++ serialLine m ++ part

def document (r : Request) : Except Failure Doc := do
  let (m?, s) ← r.declared .initial
  let declared ← match m? with
    | some m => (r.methodPart s m).mapError .misuse
    | none => pure Doc.empty
  let reserved ← match r.reserved with
    | some interface => do
      let (ms, s) ← Catalogue.build s interface []
      let parts ← (ms.mapM (r.reservedPart s)).mapError .misuse
      pure (Doc.concat parts)
    | none => pure Doc.empty
  return declared ++ reserved

def render (r : Request) : Except Failure String := do
  let document ← r.document
  return document.toText

end Request
end Idl
