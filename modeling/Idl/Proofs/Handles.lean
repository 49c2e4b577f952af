import Idl.Proofs.Composition
import Idl.Proofs.Legible
import Idl.Proofs.Parameters

/-!
# Handles and the managed backend

The managed backend has no form for a method that passes handles. Whether a method has a managed
form is decided by the leaves of its types, and what is written for the managed backend is spelled
from the same types by rules of their own, with boxes inside containers. The two agree: a method has
a managed form exactly if no handle would be named in its managed text.
-/

namespace Idl

namespace Leaf

variable {l : Leaf}

theorem hasManagedForm_iff (hl : l ∈ builtins) : l.hasManagedForm = true ↔ l ≠ .handle := by
  cases l with
  | scalar k => exact iff_of_true rfl nofun
  | string => exact iff_of_true rfl nofun
  | handle => exact iff_of_false nofun fun h => h rfl
  | foreign f => simp [builtins] at hl

end Leaf

section Gate

variable {s : Scope} {t : Ty} {m : Method}

theorem Scope.Resolved.hasManagedForm_iff {depth : Nat} {l : Leaf} (h : s.Resolved t depth l)
    (hl : l ∈ Leaf.builtins) : (s.shape t).hasManagedForm = true ↔ l ≠ .handle := by
  rw [h.shape_eq, Shape.hasManagedForm_vectors, Leaf.hasManagedForm_iff hl]

namespace Method

theorem hasManagedForm_iff_forall (hshown : m.hidesTypes = false) : m.hasManagedForm s = true ↔
    ∀ v ∈ m.args ++ m.results, (s.shape v.type).hasManagedForm = true := by
  rw [hasManagedForm, hshown, Bool.false_or, Signature.hasManagedForm, List.all_eq_true]
  change (∀ p ∈ m.args.map (Var.param s) ++ m.results.map (Var.param s), _) ↔ _
  rw [← List.map_append, List.forall_mem_map]
  rfl

end Method
end Gate

namespace Request

variable {r : Request} {name : String} {s : Scope} {as rs : List Entry} {m : Method}

/-- The entry names a handle inside all vectors. -/
def Entry.IsHandle (e : Entry) : Prop := e.core = "handle"

theorem exists_leaf_of_lookup {n : String} {t : Ty} (h : Scope.builtins.lookup n = some t) :
    ∃ l ∈ Leaf.builtins, t = .leaf l ∧ (l = .handle ↔ n = "handle") := by
  have hscalar : ∀ k ∈ Scalar.all, k.name ≠ "handle" := by decide
  rcases List.mem_append.1 (Scope.mem_of_lookup_eq_some h) with hmem | hmem
  · obtain ⟨k, hk, heq⟩ := List.mem_map.1 hmem
    cases heq
    exact ⟨.scalar k, Leaf.scalar_mem_builtins k, rfl, iff_of_false nofun (hscalar k hk)⟩
  · rcases List.mem_pair.1 hmem with heq | heq <;> cases heq
    · exact ⟨.string, .head _, rfl, iff_of_false nofun (by decide)⟩
    · exact ⟨.handle, .tail _ (.head _), rfl, iff_of_true rfl rfl⟩

/-- The variable is resolved to the builtin type that the entry names. -/
def Entry.Means (s : Scope) (e : Entry) (v : Var) : Prop :=
  v.name = e.name ∧ ∃ l ∈ Leaf.builtins, Scope.builtins.lookup e.core = some (.leaf l) ∧
    s.Resolved v.type e.depth l

theorem Entry.Describes.means {e : Entry} {v : Var} (h : e.Describes v) (hbound : ¬ Unbound e)
    (hnext : ∀ ref, s.next? ref = Scope.builtins.lookup ref.name)
    (hresolved : ∃ depth l, s.Resolved v.type depth l) : e.Means s v := by
  obtain ⟨hname, -, hdepth, id, hcore⟩ := h
  obtain ⟨t, ht⟩ := Option.ne_none_iff_exists'.1 fun hnone =>
    hbound (lookup_builtins_eq_none_iff.1 hnone)
  obtain ⟨l, hl, rfl, -⟩ := exists_leaf_of_lookup ht
  obtain ⟨depth, l', h⟩ := hresolved
  let ref : Ref := ⟨id, e.core, e.location⟩
  have hw : Ty.Walk s.next? v.type.core.ty [ref] 0 (.leaf l) := by
    rw [hcore]
    exact .hop ((hnext ref).trans ht) (.leaf l)
  have hwalk := Ty.Walk.of_core hw
  rw [hdepth, Nat.add_zero] at hwalk
  exact ⟨hname, l, hl, ht, h.of_walk hwalk⟩

theorem Entry.Means.isHandle_iff {e : Entry} {v : Var} (h : e.Means s v) :
    ¬ e.IsHandle ↔ (s.shape v.type).hasManagedForm = true := by
  obtain ⟨-, l, hl, hlookup, hresolved⟩ := h
  obtain ⟨l', -, heq, hhandle⟩ := exists_leaf_of_lookup hlookup
  cases heq
  rw [hresolved.hasManagedForm_iff hl, ne_eq, hhandle, IsHandle]

/-- The request is answered with the method, and the entries name the types of the method. -/
structure Handed (r : Request) (as rs : List Entry) (s : Scope) (m : Method) : Prop where
  declared_eq : r.declared .initial = .ok (some m, s)
  ordinary : m.isReserved = false
  args : List.Forall₂ (Entry.Means s) as m.args
  results : List.Forall₂ (Entry.Means s) rs m.results

theorem Handed.hidesTypes_eq (h : Handed r as rs s m) : m.hidesTypes = false := by
  rw [Method.hidesTypes, h.ordinary, Bool.false_and]

/-- The names of the declared types decide on the managed form. -/
theorem Handed.hasManagedForm_iff (h : Handed r as rs s m) :
    m.hasManagedForm s = true ↔ ¬ ∃ e ∈ as ++ rs, e.IsHandle := by
  have hforall : (∀ e ∈ as ++ rs, ¬ e.IsHandle) ↔
      ∀ v ∈ m.args ++ m.results, (s.shape v.type).hasManagedForm = true :=
    forall_mem_iff_of_forall₂ (List.rel_append h.args h.results) fun _ _ h => h.isHandle_iff
  rw [Method.hasManagedForm_iff_forall h.hidesTypes_eq, ← hforall]
  simp only [not_exists, not_and]

end Request
end Idl
