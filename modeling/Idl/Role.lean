/-!
# Backends and roles

Code is generated for two backends. A reserved method may bring its own body for each of the
five places, called roles, where a body of it is written.
-/

namespace Idl

inductive Backend where
  | native
  | managed
  deriving DecidableEq, Repr

def Backend.name : Backend → String
  | .native => "native"
  | .managed => "managed"

inductive Role where
  /-- Default body on the interface itself. -/
  | interface
  /-- Client side. -/
  | proxy
  /-- Server side. -/
  | stub
  /-- Default that the native server side falls back to. -/
  | stubImpl
  /-- Wrapper within one process. -/
  | passthrough
  deriving DecidableEq, Repr

namespace Role

def all : List Role := [interface, proxy, stub, stubImpl, passthrough]

def name : Role → String
  | interface => "interface"
  | proxy => "proxy"
  | stub => "stub"
  | stubImpl => "stub-impl"
  | passthrough => "passthrough"

theorem mem_all (r : Role) : r ∈ all := by cases r <;> decide

theorem nodup_all : all.Nodup := by decide

end Role
end Idl
