import Idl.Ty.Basic

/-!
# Walks from a type to its end

A walk goes from a vector to its element and from a reference `r` to the type `f r`. It ends in a
leaf, or in a reference that leads nowhere. Where it leads is determined by the type, so a
reference that it meets twice would be met forever: the references of a walk are distinct.
-/

namespace Idl.Ty

/-- `Walk f t path depth c` walks from `t` to `c`, meets the references of `path` in that order and
goes through `depth` vectors. -/
inductive Walk (f : Ref → Option Ty) : Ty → List Ref → Nat → Core → Prop
  | leaf (l : Leaf) : Walk f (leaf l) [] 0 (.leaf l)
  | vec {t path depth c} : Walk f t path depth c → Walk f (vec t) path (depth + 1) c
  | hop {r t path depth c} :
    f r = some t → Walk f t path depth c → Walk f (ref r) (r :: path) depth c
  | stop {r} : f r = none → Walk f (ref r) [r] 0 (.ref r)

namespace Core

def ref? : Core → Option Ref
  | leaf _ => none
  | ref r => some r

def ty : Core → Ty
  | leaf l => .leaf l
  | ref r => .ref r

end Core

namespace Walk

variable {f g : Ref → Option Ty} {t : Ty} {path path' : List Ref} {depth depth' : Nat}
  {c c' : Core}

theorem unique (hw : Walk f t path depth c) (hw' : Walk f t path' depth' c') :
    path = path' ∧ depth = depth' ∧ c = c' := by
  induction hw generalizing path' depth' with
  | leaf l => cases hw'; exact ⟨rfl, rfl, rfl⟩
  | vec _ ih =>
    cases hw' with
    | vec hw' =>
      obtain ⟨hpath, hdepth, hc⟩ := ih hw'
      exact ⟨hpath, by rw [hdepth], hc⟩
  | hop hr _ ih =>
    cases hw' with
    | hop hr' hw' =>
      obtain rfl := Option.some.inj (hr.symm.trans hr')
      obtain ⟨hpath, hdepth, hc⟩ := ih hw'
      exact ⟨by rw [hpath], hdepth, hc⟩
    | stop hr' => rw [hr] at hr'; cases hr'
  | stop hr =>
    cases hw' with
    | hop hr' _ => rw [hr] at hr'; cases hr'
    | stop _ => exact ⟨rfl, rfl, rfl⟩

theorem of_core (hw : Walk f t.core.ty path depth c) : Walk f t path (t.depth + depth) c := by
  induction t with
  | leaf l => rwa [Ty.depth, Nat.zero_add]
  | vec t ih =>
    rw [Ty.depth, Nat.add_right_comm]
    exact .vec (ih hw)
  | ref r => rwa [Ty.depth, Nat.zero_add]

/-- The same walk is made where its references lead to the same types. -/
theorem congr (hw : Walk f t path depth c) (h : ∀ r ∈ path, g r = f r) :
    Walk g t path depth c := by
  induction hw with
  | leaf l => exact .leaf l
  | vec _ ih => exact .vec (ih h)
  | hop hr _ ih =>
    refine .hop ((h _ List.mem_cons_self).trans hr) (ih ?_)
    exact fun r hmem => h r (List.mem_cons_of_mem _ hmem)
  | stop hr => exact .stop ((h _ List.mem_cons_self).trans hr)

/-- From each reference that it meets, a walk goes on as the walk from that reference. -/
theorem exists_suffix (hw : Walk f t path depth c) {r : Ref} (hr : r ∈ path) :
    ∃ rest n, Walk f (ref r) rest n c ∧ rest <:+ path := by
  induction hw with
  | leaf l => cases hr
  | vec _ ih => exact ih hr
  | hop h hw ih =>
    rcases List.mem_cons.1 hr with rfl | hr
    · exact ⟨_, _, .hop h hw, List.suffix_rfl⟩
    · obtain ⟨rest, n, hrest, hsuffix⟩ := ih hr
      exact ⟨rest, n, hrest, hsuffix.trans (List.suffix_cons _ _)⟩
  | stop h =>
    obtain rfl := List.mem_singleton.1 hr
    exact ⟨_, _, .stop h, List.suffix_rfl⟩

theorem nodup (hw : Walk f t path depth c) : path.Nodup := by
  induction hw with
  | leaf l => exact List.nodup_nil
  | vec _ ih => exact ih
  | hop h hw ih =>
    refine List.nodup_cons.2 ⟨fun hmem => ?_, ih⟩
    -- A second visit would go on along a part of the path as long as the whole.
    obtain ⟨rest, n, hrest, hsuffix⟩ := hw.exists_suffix hmem
    have hlen := hsuffix.length_le
    rw [(hrest.unique (.hop h hw)).1, List.length_cons] at hlen
    omega
  | stop h => exact List.nodup_cons.2 ⟨List.not_mem_nil, List.nodup_nil⟩

/-- Only the last reference of a walk leads nowhere, and only if the walk ends there. -/
theorem isSome_or_eq_end (hw : Walk f t path depth c) {r : Ref} (hr : r ∈ path) :
    (f r).isSome ∨ c = .ref r := by
  induction hw with
  | leaf l => cases hr
  | vec _ ih => exact ih hr
  | hop h _ ih =>
    rcases List.mem_cons.1 hr with rfl | hr
    · exact .inl (by rw [h]; rfl)
    · exact ih hr
  | stop _ => exact .inr (by rw [List.mem_singleton.1 hr])

theorem isSome_of_leaf {l : Leaf} (hw : Walk f t path depth (.leaf l)) {r : Ref} (hr : r ∈ path) :
    (f r).isSome := by
  rcases hw.isSome_or_eq_end hr with h | h
  · exact h
  · cases h

/-- Each reference that a walk meets is the core of its start or of a type that a reference leads
to. -/
theorem eq_core_or_exists (hw : Walk f t path depth c) {r : Ref} (hr : r ∈ path) :
    t.core = .ref r ∨ ∃ r' u, f r' = some u ∧ u.core = .ref r := by
  induction hw with
  | leaf l => cases hr
  | vec _ ih => exact ih hr
  | hop h _ ih =>
    rcases List.mem_cons.1 hr with rfl | hr
    · exact .inl rfl
    · rcases ih hr with hcore | hsome
      · exact .inr ⟨_, _, h, hcore⟩
      · exact .inr hsome
  | stop _ => exact .inl (by rw [List.mem_singleton.1 hr]; rfl)

end Walk
end Idl.Ty
