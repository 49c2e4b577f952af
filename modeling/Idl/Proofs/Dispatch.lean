import Idl.Proofs.Relocation
import Idl.Proofs.Standing
import Idl.Proofs.WholeLines

/-!
# Where a body comes from

Only a reserved method has bodies of its own, and an emitter asks no other for them. So the dispatch
on roles always gives a body, and the parts that make up the text of a request are never misused:
each is a document that is known beforehand.
-/

namespace Idl

namespace Method

variable {m m' : Method} {backend : Backend}

theorem table_eq_ok (h : m.isReserved = true) (backend : Backend) :
    m.table backend = .ok (m.bodies backend) := by
  unfold bodies table
  cases hstanding : m.standing with
  | ordinary serial => simp [isReserved, hstanding] at h
  | reserved serial native managed => cases backend <;> rfl

theorem bodies_eq_empty (h : m.isReserved = false) (backend : Backend) :
    m.bodies backend = .empty backend := by
  unfold bodies table
  cases hstanding : m.standing with
  | ordinary serial => rfl
  | reserved serial native managed => simp [isReserved, hstanding] at h

theorem bodies_congr (h : m'.standing = m.standing) (backend : Backend) :
    m'.bodies backend = m.bodies backend := by
  unfold bodies table
  rw [h]
  cases m.standing with
  | ordinary serial => rfl
  | reserved serial native managed => cases backend <;> rfl

theorem isReserved_congr (h : m'.standing = m.standing) : m'.isReserved = m.isReserved := by
  rw [isReserved, isReserved, h]

/-- Each body that the method brings ends its last line. -/
def Closed (m : Method) : Prop :=
  ∀ backend role body, (m.bodies backend).get? role = some body → body.doc.Whole

theorem closed_of_ordinary (h : m.isReserved = false) : m.Closed := by
  intro backend role body hbody
  rw [bodies_eq_empty h] at hbody
  cases hbody

end Method

namespace Emitter

variable {e : Emitter} {s : Scope} {m : Method} {role : Role}

theorem brings_eq_ok (h : m.isReserved = true) (e : Emitter) (role : Role) :
    e.brings m role = .ok ((m.bodies e.backend).contains role) := by
  rw [brings, m.table_eq_ok h]
  rfl

theorem ownBody_eq_ok (h : m.isReserved = true) (e : Emitter) (role : Role) :
    e.ownBody m role = .ok ((m.bodies e.backend).emit role) := by
  rw [ownBody, m.table_eq_ok h]
  rfl

/-- The body that the method brings for the role, or the generic one if it brings none. -/
theorem body_eq_ok (e : Emitter) (s : Scope) (m : Method) (role : Role) :
    e.body s m role = .ok (match (m.bodies e.backend).get? role with
      | some body => body.doc
      | none => e.fallbackBody (m.signature s)) := by
  unfold body
  cases hreserved : m.isReserved with
  | false =>
    rw [Method.bodies_eq_empty hreserved]
    rfl
  | true =>
    rw [brings_eq_ok hreserved, ownBody_eq_ok hreserved, BodyTable.contains, BodyTable.emit]
    cases (m.bodies e.backend).get? role <;> rfl

/-- The section of a role; nothing if the method brings no body for it. -/
def ownSection (e : Emitter) (m : Method) (role : Role) : Doc :=
  match (m.bodies e.backend).get? role with
  | some body =>
    Doc.text ("// " ++ e.backend.name ++ " " ++ role.name ++ "\n") ++ Doc.nest body.doc
  | none => .empty

def ownSections (e : Emitter) (m : Method) : Doc :=
  if m.isReserved then Doc.concat (Role.all.map (e.ownSection m)) else .empty

theorem roleSection_eq_ok (h : m.isReserved = true) (e : Emitter) (s : Scope) (role : Role) :
    e.roleSection s m role = .ok (e.ownSection m role) := by
  have hbrings := brings_eq_ok h e role
  have hbody := e.body_eq_ok s m role
  rw [BodyTable.contains] at hbrings
  unfold ownSection
  cases hget : (m.bodies e.backend).get? role with
  | none =>
    rw [hget] at hbrings
    rw [roleSection, hbrings]
    rfl
  | some body =>
    rw [hget] at hbrings hbody
    exact Doc.roleSection_of_body hbrings hbody

theorem roleSections_eq_ok (e : Emitter) (s : Scope) (m : Method) :
    e.roleSections s m = .ok (e.ownSections m) := by
  unfold roleSections ownSections
  cases hreserved : m.isReserved with
  | false => rfl
  | true =>
    have hsection : e.roleSection s m = fun role => pure (e.ownSection m role) :=
      funext fun role => roleSection_eq_ok hreserved e s role
    rw [hsection, List.mapM_pure]
    rfl

theorem whole_ownSection (h : m.Closed) (e : Emitter) (role : Role) :
    (e.ownSection m role).Whole := by
  unfold ownSection
  cases hget : (m.bodies e.backend).get? role with
  | none => exact Doc.whole_empty
  | some body => exact (Doc.whole_line _).append (h e.backend role body hget).nest

theorem whole_ownSections (h : m.Closed) (e : Emitter) : (e.ownSections m).Whole := by
  unfold ownSections
  split
  · refine Doc.whole_concat fun d hd => ?_
    obtain ⟨role, -, rfl⟩ := List.mem_map.1 hd
    exact whole_ownSection h e role
  · exact Doc.whole_empty

end Emitter
end Idl
