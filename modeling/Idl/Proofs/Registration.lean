import Idl.BodyTable

/-!
# Building tables of bodies

A table is built by attempts to register bodies, of which those that are refused change nothing. No
sequence of attempts leads to a table that holds a role its backend excludes.
-/

namespace Idl.BodyTable

variable {t t' : BodyTable} {role : Role} {body : Body}

/-- The table after an attempt to register a body, refused or not. -/
def attempt (t : BodyTable) (role : Role) (body : Body) : BodyTable :=
  match t.register role body with
  | .ok registered => registered
  | .error _ => t

/-- What is to be registered, in this order, in a table that is empty at first. -/
structure Attempts where
  backend : Backend
  entries : List (Role × Body)

def Attempts.table (a : Attempts) : BodyTable :=
  a.entries.foldl (fun t entry => t.attempt entry.1 entry.2) (.empty a.backend)

/-- The managed backend has no role `stub-impl`, and the native one has it only without `stub`. -/
structure Coherent (t : BodyTable) : Prop where
  managed : t.backend = .managed → ¬ t.contains .stubImpl
  native : t.backend = .native → ¬ (t.contains .stub ∧ t.contains .stubImpl)

theorem not_contains_empty (backend : Backend) (role : Role) : ¬ (empty backend).contains role := by
  simp [contains, empty]

theorem coherent_empty (backend : Backend) : (empty backend).Coherent :=
  ⟨fun _ => not_contains_empty backend .stubImpl, fun _ h => not_contains_empty backend .stub h.1⟩

theorem contains_set (t : BodyTable) (role r : Role) (body : Body) :
    (t.set role body).contains r ↔ r = role ∨ t.contains r := by
  by_cases h : r = role <;> simp [contains, h]

theorem refusal?_eq_none_iff : t.refusal? role = none ↔
    (t.backend = .managed → role ≠ .stubImpl) ∧
      (t.backend = .native → (role = .stub → ¬ t.contains .stubImpl) ∧
        (role = .stubImpl → ¬ t.contains .stub)) := by
  unfold refusal?
  cases t.backend <;> cases role <;> simp

theorem attempt_eq_or (t : BodyTable) (role : Role) (body : Body) :
    t.attempt role body = t ∨ t.refusal? role = none ∧ t.attempt role body = t.set role body := by
  unfold attempt register
  cases h : t.refusal? role with
  | some refusal => exact .inl rfl
  | none => exact .inr ⟨rfl, rfl⟩

theorem backend_attempt (t : BodyTable) (role : Role) (body : Body) :
    (t.attempt role body).backend = t.backend := by
  rcases attempt_eq_or t role body with h | ⟨-, h⟩
  · rw [h]
  · rw [h, backend_set]

/-- A body is registered only where that leaves the table coherent. -/
theorem Coherent.set (h : t.Coherent) (hrefusal : t.refusal? role = none) (body : Body) :
    (t.set role body).Coherent := by
  obtain ⟨hmanaged, hnative⟩ := refusal?_eq_none_iff.1 hrefusal
  constructor
  · intro hbackend hstubImpl
    rw [backend_set] at hbackend
    rcases (contains_set t role .stubImpl body).1 hstubImpl with hrole | hstubImpl
    · exact hmanaged hbackend hrole.symm
    · exact h.managed hbackend hstubImpl
  · rintro hbackend ⟨hstub, hstubImpl⟩
    rw [backend_set] at hbackend
    obtain ⟨hnotStubImpl, hnotStub⟩ := hnative hbackend
    rcases (contains_set t role .stub body).1 hstub with hrole | hstub
    · rcases (contains_set t role .stubImpl body).1 hstubImpl with hrole' | hstubImpl
      · rw [← hrole] at hrole'
        cases hrole'
      · exact hnotStubImpl hrole.symm hstubImpl
    · rcases (contains_set t role .stubImpl body).1 hstubImpl with hrole' | hstubImpl
      · exact hnotStub hrole'.symm hstub
      · exact h.native hbackend ⟨hstub, hstubImpl⟩

theorem Coherent.attempt (h : t.Coherent) (role : Role) (body : Body) :
    (t.attempt role body).Coherent := by
  rcases attempt_eq_or t role body with heq | ⟨hrefusal, heq⟩
  · rwa [heq]
  · rw [heq]
    exact h.set hrefusal body

theorem eq_set_of_register (h : t.register role body = .ok t') : t' = t.set role body := by
  unfold register at h
  cases hrefusal : t.refusal? role with
  | some refusal =>
    rw [hrefusal] at h
    cases h
  | none =>
    rw [hrefusal] at h
    exact (Except.ok.inj h).symm

/-- What each registered entry keeps holds of a table made of them, if it holds of the empty one. -/
theorem ofList_induction {P : BodyTable → Prop} {backend : Backend} {entries : List (Role × Body)}
    (h : ofList backend entries = .ok t) (hempty : P (.empty backend))
    (hset : ∀ t, ∀ entry ∈ entries, P t → P (t.set entry.1 entry.2)) : P t := by
  unfold ofList at h
  generalize empty backend = start at h hempty
  induction entries generalizing start with
  | nil =>
    cases h
    exact hempty
  | cons entry rest ih =>
    rw [List.foldlM_cons] at h
    cases hentry : start.register entry.1 entry.2 with
    | error refusal =>
      rw [hentry] at h
      cases h
    | ok registered =>
      rw [hentry] at h
      have hregistered : P registered := by
        rw [eq_set_of_register hentry]
        exact hset start entry List.mem_cons_self hempty
      exact ih (fun t entry' h' => hset t entry' (List.mem_cons_of_mem entry h')) registered h
        hregistered

theorem backend_of_ofList {backend : Backend} {entries : List (Role × Body)}
    (h : ofList backend entries = .ok t) : t.backend = backend :=
  ofList_induction (P := fun t => t.backend = backend) h rfl fun _ _ _ ht => ht

/-- A table made of entries holds no other bodies than these. -/
theorem mem_of_get?_ofList {backend : Backend} {entries : List (Role × Body)}
    (h : ofList backend entries = .ok t) (hbody : t.get? role = some body) :
    (role, body) ∈ entries := by
  refine ofList_induction (P := fun t => ∀ role body, t.get? role = some body →
    (role, body) ∈ entries) h nofun (fun t entry hentry ht r b hb => ?_) role body hbody
  rw [get?_set] at hb
  by_cases hr : r = entry.1
  · rw [if_pos hr] at hb
    rw [hr, ← Option.some.inj hb]
    exact hentry
  · rw [if_neg hr] at hb
    exact ht r b hb

namespace Attempts

/-- What each attempt keeps holds of the table, if it holds of the empty one. -/
theorem table_induction {P : BodyTable → Prop} (a : Attempts) (hempty : P (.empty a.backend))
    (hattempt : ∀ t role body, P t → P (t.attempt role body)) : P a.table := by
  unfold table
  apply List.foldlRecOn
  · exact hempty
  · intro t ht entry _
    exact hattempt t entry.1 entry.2 ht

theorem backend_table (a : Attempts) : a.table.backend = a.backend := by
  apply a.table_induction (P := fun t => t.backend = a.backend) rfl
  intro t role body ht
  rw [backend_attempt, ht]

theorem coherent_table (a : Attempts) : a.table.Coherent :=
  a.table_induction (coherent_empty a.backend) fun _ role body ht => ht.attempt role body

/-- Where nothing is refused, attempts make the table that registration makes. -/
theorem table_of_ofList {backend : Backend} {entries : List (Role × Body)}
    (h : ofList backend entries = .ok t) : (Attempts.mk backend entries).table = t := by
  unfold ofList at h
  unfold table
  generalize empty backend = start at h ⊢
  induction entries generalizing start with
  | nil => exact Except.ok.inj h
  | cons entry rest ih =>
    rw [List.foldlM_cons] at h
    cases hentry : start.register entry.1 entry.2 with
    | error refusal =>
      rw [hentry] at h
      cases h
    | ok registered =>
      rw [hentry] at h
      have hattempt : start.attempt entry.1 entry.2 = registered := by
        rw [attempt, hentry]
      rw [List.foldl_cons, hattempt]
      exact ih registered h

end Attempts
end Idl.BodyTable
