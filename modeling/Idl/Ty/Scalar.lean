/-!
# Scalars

Each scalar has a keyword and a spelling for either backend. The managed backend knows no unsigned
numbers, so an unsigned kind shares the spelling of the signed one of its width.
-/

namespace Idl

inductive Scalar where
  | bool | int8 | uint8 | int16 | uint16 | int32 | uint32 | int64 | uint64 | float | double
  deriving DecidableEq, Repr

namespace Scalar

def all : List Scalar :=
  [bool, int8, uint8, int16, uint16, int32, uint32, int64, uint64, float, double]

def name : Scalar → String
  | bool => "bool"
  | int8 => "int8"
  | uint8 => "uint8"
  | int16 => "int16"
  | uint16 => "uint16"
  | int32 => "int32"
  | uint32 => "uint32"
  | int64 => "int64"
  | uint64 => "uint64"
  | float => "float"
  | double => "double"

def ofName? (name : String) : Option Scalar := all.find? fun k => k.name == name

def native : Scalar → String
  | bool => "bool"
  | int8 => "int8_t"
  | uint8 => "uint8_t"
  | int16 => "int16_t"
  | uint16 => "uint16_t"
  | int32 => "int32_t"
  | uint32 => "uint32_t"
  | int64 => "int64_t"
  | uint64 => "uint64_t"
  | float => "float"
  | double => "double"

def managed : Scalar → String
  | bool => "boolean"
  | int8 | uint8 => "byte"
  | int16 | uint16 => "short"
  | int32 | uint32 => "int"
  | int64 | uint64 => "long"
  | float => "float"
  | double => "double"

/-- Spelling as the element of a managed container. -/
def boxed : Scalar → String
  | bool => "Boolean"
  | int8 | uint8 => "Byte"
  | int16 | uint16 => "Short"
  | int32 | uint32 => "Integer"
  | int64 | uint64 => "Long"
  | float => "Float"
  | double => "Double"

def default : Scalar → String
  | bool => "false"
  | _ => "0"

theorem mem_all (k : Scalar) : k ∈ all := by cases k <;> decide

theorem ofName?_name (k : Scalar) : ofName? k.name = some k := by cases k <;> decide

end Scalar
end Idl
