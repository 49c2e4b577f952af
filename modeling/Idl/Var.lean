import Idl.Shape

/-!
# Variables and their lists

A variable gives a name to a type. The arguments of a method form a list in which no two
variables share a name, and so do its results.
-/

namespace Idl

structure Var where
  name : String
  type : Ty
  location : Location

structure VarList where
  vars : List Var
  nodup : (vars.map Var.name).Nodup

namespace VarList

def empty : VarList := ⟨[], List.nodup_nil⟩

def names (l : VarList) : List String := l.vars.map Var.name

def contains (l : VarList) (name : String) : Bool := name ∈ l.names

/-- Appends a variable unless its name is taken. -/
def add? (l : VarList) (v : Var) : Option VarList :=
  if h : v.name ∈ l.names then none
  else some ⟨l.vars ++ [v], by
    have := l.nodup
    simp only [List.map_append, List.nodup_append]
    refine ⟨this, by simp, ?_⟩
    rintro a ha b hb rfl
    simp only [List.map_cons, List.map_nil, List.mem_singleton] at hb
    exact h (hb ▸ ha)⟩

/-- The variables in order; the first whose name stands before it is an error. -/
def ofList (vs : List Var) : Except Diagnostic VarList :=
  vs.foldlM (fun l v =>
    match l.add? v with
    | some longer => .ok longer
    | none => .error (.duplicateName v.name v.location)) empty

@[simp] theorem contains_iff {l : VarList} {name : String} :
    l.contains name ↔ ∃ v ∈ l.vars, v.name = name := by
  simp [contains, names]

theorem add?_eq_none_iff {l : VarList} {v : Var} : l.add? v = none ↔ l.contains v.name := by
  unfold add? contains
  split <;> simp_all

end VarList

/-- A variable as the emitters see it: its type has become a shape. -/
structure Param where
  name : String
  shape : Shape

def Var.param (s : Scope) (v : Var) : Param := ⟨v.name, s.shape v.type⟩

end Idl
