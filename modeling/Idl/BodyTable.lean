import Idl.Doc
import Idl.Failure

/-!
# Bodies by role

A reserved method has one table of bodies for each backend. On the managed backend the role
`stub-impl` does not exist; on the native one it excludes the role `stub`.
-/

namespace Idl

inductive Body where
  | emit (body : Doc)
  /-- The role is taken but nothing is written for it. -/
  | empty

def Body.doc : Body → Doc
  | emit body => body
  | empty => .empty

def Body.lines (lines : List String) : Body := emit (.ofLines lines)

structure BodyTable where
  backend : Backend
  get? : Role → Option Body

namespace BodyTable

def empty (backend : Backend) : BodyTable := ⟨backend, fun _ => none⟩

def contains (t : BodyTable) (role : Role) : Bool := (t.get? role).isSome

def set (t : BodyTable) (role : Role) (body : Body) : BodyTable :=
  { t with get? := fun r => if r = role then some body else t.get? r }

/-- What speaks against registering a body for the role. -/
def refusal? (t : BodyTable) (role : Role) : Option Refusal :=
  match t.backend, role with
  | .managed, .stubImpl => some .stubImplOnManaged
  | .native, .stub => if t.contains .stubImpl then some .stubShadowsStubImpl else none
  | .native, .stubImpl => if t.contains .stub then some .stubShadowsStubImpl else none
  | _, _ => none

/-- Registers a body, in place of an earlier one for the role. -/
def register (t : BodyTable) (role : Role) (body : Body) : Except Refusal BodyTable :=
  match t.refusal? role with
  | some refusal => .error refusal
  | none => .ok (t.set role body)

/-- Registers the entries in order; the first refusal ends it. -/
def ofList (backend : Backend) (entries : List (Role × Body)) : Except Refusal BodyTable :=
  entries.foldlM (fun t entry => t.register entry.1 entry.2) (empty backend)

/-- What is written for the role: nothing if it is not registered. -/
def emit (t : BodyTable) (role : Role) : Doc :=
  match t.get? role with
  | some body => body.doc
  | none => .empty

def roles (t : BodyTable) : List Role := Role.all.filter t.contains

def isEmpty (t : BodyTable) : Bool := t.roles.isEmpty

@[simp] theorem get?_set (t : BodyTable) (role r : Role) (body : Body) :
    (t.set role body).get? r = if r = role then some body else t.get? r := rfl

@[simp] theorem backend_set (t : BodyTable) (role : Role) (body : Body) :
    (t.set role body).backend = t.backend := rfl

theorem mem_roles {t : BodyTable} {role : Role} : role ∈ t.roles ↔ t.contains role := by
  simp [roles, Role.mem_all]

end BodyTable
end Idl
