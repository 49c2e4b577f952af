import Idl.Annotation
import Idl.Var

/-!
# Signatures

A signature is all that a backend is told about a method. The native backend returns at most one
value directly; `Delivery` says how it hands over the results. Whether a reference can be
returned directly is known only once it is resolved, so the delivery is found anew in each scope.
-/

namespace Idl

inductive Delivery where
  | direct (result : Param)
  | nothing
  /-- The results are handed to a callback, the last parameter. -/
  | callback

namespace Delivery

def ofResults : List Param → Delivery
  | [] => nothing
  | [only] => if only.shape.returnable then direct only else callback
  | _ => callback

/-- The result that is returned directly, if any. -/
def direct? : Delivery → Option Param
  | direct result => some result
  | _ => none

/-- Whether a native call with these arguments takes no parameters at all. -/
def takesNothing (args : List Param) : Delivery → Bool
  | callback => false
  | _ => args.isEmpty

end Delivery

structure Signature where
  name : String
  args : List Param
  results : List Param
  annotations : List Annotation

namespace Signature

def delivery (g : Signature) : Delivery := .ofResults g.results

def takesNothing (g : Signature) : Bool := g.delivery.takesNothing g.args

def hasManagedForm (g : Signature) : Bool :=
  (g.args ++ g.results).all fun p => p.shape.hasManagedForm

end Signature
end Idl
