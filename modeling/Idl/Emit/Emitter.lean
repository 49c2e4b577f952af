import Idl.Emit.Managed
import Idl.Emit.Native
import Idl.Method

/-!
# Emitters

An emitter writes the parts of a method for one backend. Where a body is wanted, that of a
reserved method's table comes first; a method without one for the role gets the generic body.
Asking an ordinary method for its own bodies is a misuse, which `body` never commits.
-/

namespace Idl

inductive Emitter where
  | native (style : NativeStyle)
  | managed
  deriving DecidableEq, Repr

namespace Emitter

def backend : Emitter → Backend
  | native _ => .native
  | managed => .managed

def args : Emitter → Signature → Doc
  | native style => Native.args style
  | managed => Managed.args

def results : Emitter → Signature → Doc
  | native style => Native.results style
  | managed => Managed.results

def fallbackBody : Emitter → Signature → Doc
  | native style => Native.fallbackBody style
  | managed => Managed.fallbackBody

def brings (e : Emitter) (m : Method) (role : Role) : Except Misuse Bool := do
  return (← m.table e.backend).contains role

def ownBody (e : Emitter) (m : Method) (role : Role) : Except Misuse Doc := do
  return (← m.table e.backend).emit role

def body (e : Emitter) (s : Scope) (m : Method) (role : Role) : Except Misuse Doc :=
  if m.isReserved then do
    if ← e.brings m role then e.ownBody m role else return e.fallbackBody (m.signature s)
  else return e.fallbackBody (m.signature s)

end Emitter

def Native.define (style : NativeStyle) (s : Scope) (m : Method) (role : Role) :
    Except Misuse Doc := do
  let body ← (Emitter.native style).body s m role
  return Native.definition style (m.signature s) body

end Idl
