import Idl.Method
import Idl.Proofs.First
import Idl.Proofs.Registration

/-!
# The standing of a method is decided once

A new method is ordinary and has no number. The first call that is not a misuse numbers or reserves
it. From then on every call is refused, for a reason that only depends on what that first call was,
and the method stays as it is.
-/

namespace Idl

open BodyTable (Attempts)

namespace Method

/-- An attempt to decide the standing of a method. The tables of a reservation may be built for any
backend and in any way. -/
inductive Call where
  | number (serial : UInt32)
  | reserve (serial : UInt32) (native managed : Attempts)

abbrev Answer := Except Failure Unit

/-- The answer to a call, and the method after it. -/
def call (m : Method) : Call → Answer × Method
  | .number serial =>
    match m.number serial with
    | .ok numbered => (.ok (), numbered)
    | .error refusal => (.error (.reservation refusal), m)
  | .reserve serial native managed =>
    match m.reserve serial native.table managed.table with
    | .ok reserved => (.ok (), reserved)
    | .error failure => (.error failure, m)

/-- The answers to some calls, one after the other, each with the method after it. -/
def trace (m : Method) : List Call → List (Answer × Method)
  | [] => []
  | c :: rest => m.call c :: (m.call c).2.trace rest

namespace Call

/-- A reservation needs a native and a managed table, and the native one is looked at first. -/
def misuse? : Call → Option Misuse
  | number _ => none
  | reserve _ native managed =>
    if native.backend ≠ .native then some (.wrongTable .native)
    else if managed.backend ≠ .managed then some (.wrongTable .managed)
    else none

/-- What the call makes of a new method. -/
def standing : Call → Standing
  | number serial => .ordinary (some serial)
  | reserve serial native managed => .reserved serial native.table managed.table

/-- Why a call is refused that comes after `decided`. -/
def refusalAfter (decided : Call) (name : String) : Call → Refusal
  | number _ =>
    match decided with
    | number serial => .serialAlreadySet name serial
    | reserve .. => .serialOnReserved name
  | reserve .. =>
    match decided with
    | number serial => .serialAlreadySet name serial
    | reserve .. => .alreadyReserved name

/-- The answer to a call: it succeeds if it is the first that is not a misuse. -/
def answer (name : String) (decided? : Option Call) (c : Call) : Answer :=
  match c.misuse? with
  | some misuse => .error (.misuse misuse)
  | none =>
    match decided? with
    | some decided => .error (.reservation (decided.refusalAfter name c))
    | none => .ok ()

end Call

variable {m : Method} {c decided : Call}

theorem call_of_misuse {misuse : Misuse} (h : c.misuse? = some misuse) :
    m.call c = (.error (.misuse misuse), m) := by
  cases c with
  | number serial => cases h
  | reserve serial native managed =>
    simp only [call, reserve, Attempts.backend_table]
    by_cases hnative : native.backend = .native
    · by_cases hmanaged : managed.backend = .managed
      · simp [Call.misuse?, hnative, hmanaged] at h
      · simp only [Call.misuse?, hnative, hmanaged, ne_eq, not_true_eq_false, not_false_eq_true,
          if_true, if_false, Option.some.injEq] at h ⊢
        rw [← h]
    · simp only [Call.misuse?, hnative, ne_eq, not_false_eq_true, if_true,
        Option.some.injEq] at h ⊢
      rw [← h]

/-- A reservation that is not a misuse has a table for each backend. -/
theorem backends_of_misuse? {serial : UInt32} {native managed : Attempts}
    (h : (Call.reserve serial native managed).misuse? = none) :
    native.table.backend = .native ∧ managed.table.backend = .managed := by
  rw [native.backend_table, managed.backend_table]
  by_cases hnative : native.backend = .native
  · by_cases hmanaged : managed.backend = .managed
    · exact ⟨hnative, hmanaged⟩
    · simp [Call.misuse?, hnative, hmanaged] at h
  · simp [Call.misuse?, hnative] at h

theorem reserve_of_backends {native managed : BodyTable} (hnative : native.backend = .native)
    (hmanaged : managed.backend = .managed) (serial : UInt32) :
    m.reserve serial native managed =
      match m.standing with
      | .ordinary none => .ok { m with standing := .reserved serial native managed }
      | .ordinary (some earlier) => .error (.reservation (.serialAlreadySet m.name earlier))
      | .reserved .. => .error (.reservation (.alreadyReserved m.name)) := by
  unfold reserve
  exact (if_neg (not_not_intro hnative)).trans (if_neg (not_not_intro hmanaged))

theorem call_of_new (hm : m.standing = .ordinary none) (hc : c.misuse? = none) :
    m.call c = (.ok (), { m with standing := c.standing }) := by
  cases c with
  | number serial => simp only [call, number, hm, Call.standing]
  | reserve serial native managed =>
    obtain ⟨hnative, hmanaged⟩ := backends_of_misuse? hc
    simp only [call, reserve_of_backends hnative hmanaged, hm, Call.standing]

theorem call_of_decided (hm : m.standing = decided.standing) (hc : c.misuse? = none) :
    m.call c = (.error (.reservation (decided.refusalAfter m.name c)), m) := by
  cases c with
  | number serial =>
    cases decided <;> simp only [call, number, hm, Call.standing, Call.refusalAfter]
  | reserve serial native managed =>
    obtain ⟨hnative, hmanaged⟩ := backends_of_misuse? hc
    cases decided <;>
      simp only [call, reserve_of_backends hnative hmanaged, hm, Call.standing, Call.refusalAfter]

/-- Once decided, a method answers every call in the same way and stays as it is. -/
theorem trace_of_decided (hm : m.standing = decided.standing) (calls : List Call) :
    m.trace calls = calls.map fun c => (c.answer m.name (some decided), m) := by
  induction calls with
  | nil => rfl
  | cons c rest ih =>
    have hcall : m.call c = (c.answer m.name (some decided), m) := by
      unfold Call.answer
      cases hc : c.misuse? with
      | some misuse => exact call_of_misuse hc
      | none => exact call_of_decided hm hc
    rw [trace, hcall, ih, List.map_cons]

/-- A misuse changes nothing. -/
theorem trace_of_misuses (m : Method) {before : List Call}
    (h : ∀ c ∈ before, c.misuse? ≠ none) (rest : List Call) :
    m.trace (before ++ rest) = before.map (fun c => (c.answer m.name none, m)) ++ m.trace rest := by
  induction before with
  | nil => rfl
  | cons c before ih =>
    obtain ⟨misuse, hc⟩ := Option.ne_none_iff_exists'.1 (h c List.mem_cons_self)
    have hbefore := ih fun c' hc' => h c' (List.mem_cons_of_mem c hc')
    rw [List.cons_append, trace, call_of_misuse hc, hbefore, List.map_cons, Call.answer, hc]
    rfl

/-- The first call that is not a misuse succeeds, and the calls after it are refused. -/
theorem trace_of_decision {before : List Call} (hm : m.standing = .ordinary none)
    (hbefore : ∀ c ∈ before, c.misuse? ≠ none) (hdecided : decided.misuse? = none)
    (after : List Call) :
    let m' : Method := { m with standing := decided.standing }
    m.trace (before ++ decided :: after) = before.map (fun c => (c.answer m.name none, m)) ++
      (.ok (), m') :: after.map fun c => (c.answer m.name (some decided), m') := by
  intro m'
  have hafter : m'.trace after = after.map fun c => (c.answer m.name (some decided), m') :=
    trace_of_decided rfl after
  rw [trace_of_misuses m hbefore, trace, call_of_new hm hdecided, hafter]

theorem isOk_answer_of_misuse (name : String) (decided? : Option Call) (h : c.misuse? ≠ none) :
    (c.answer name decided?).isOk = false := by
  obtain ⟨misuse, hc⟩ := Option.ne_none_iff_exists'.1 h
  unfold Call.answer
  rw [hc]
  rfl

theorem isOk_answer_of_decided (name : String) (decided c : Call) :
    (c.answer name (some decided)).isOk = false := by
  unfold Call.answer
  cases c.misuse? <;> rfl

theorem countP_isOk_eq_zero {name : String} {decided? : Option Call} {calls : List Call}
    (h : ∀ c ∈ calls, (c.answer name decided?).isOk = false) (m : Method) :
    ((calls.map fun c => (c.answer name decided?, m)).countP fun entry => entry.1.isOk) = 0 := by
  rw [List.countP_map, List.countP_eq_zero]
  intro c hc
  exact Bool.eq_false_iff.1 (h c hc)

/-- The bodies that a method brings for a backend. An ordinary method brings none. -/
def bodies (m : Method) (backend : Backend) : BodyTable :=
  match m.table backend with
  | .ok table => table
  | .error _ => .empty backend

/-- What holds of a method whatever has been tried on it. -/
structure Regular (m : Method) : Prop where
  serial_of_reserved : m.isReserved → m.serial?.isSome
  bodies_of_ordinary : ¬ m.isReserved → ∀ backend, m.bodies backend = .empty backend
  backend_bodies : ∀ backend, (m.bodies backend).backend = backend
  native : ¬ ((m.bodies .native).contains .stub ∧ (m.bodies .native).contains .stubImpl)
  managed : ¬ (m.bodies .managed).contains .stubImpl

theorem regular_of_ordinary {serial : Option UInt32} (h : m.standing = .ordinary serial) :
    m.Regular := by
  have hbodies : ∀ backend, m.bodies backend = .empty backend := by
    intro backend
    unfold bodies table
    rw [h]
  have hreserved : m.isReserved = false := by
    unfold isReserved
    rw [h]
  refine ⟨fun h => ?_, fun _ => hbodies, fun backend => ?_, fun h => ?_, fun h => ?_⟩
  · rw [hreserved] at h
    cases h
  · rw [hbodies]
    rfl
  · rw [hbodies] at h
    exact BodyTable.not_contains_empty _ _ h.1
  · rw [hbodies] at h
    exact BodyTable.not_contains_empty _ _ h

theorem regular_of_decided (h : m.standing = decided.standing) (hdecided : decided.misuse? = none) :
    m.Regular := by
  cases decided with
  | number serial => exact regular_of_ordinary h
  | reserve serial native managed =>
    obtain ⟨hnative, hmanaged⟩ := backends_of_misuse? hdecided
    have hnativeBodies : m.bodies .native = native.table := by
      unfold bodies table
      rw [h]
      rfl
    have hmanagedBodies : m.bodies .managed = managed.table := by
      unfold bodies table
      rw [h]
      rfl
    refine ⟨fun _ => ?_, fun hordinary => ?_, fun backend => ?_, ?_, ?_⟩
    · unfold serial?
      rw [h]
      rfl
    · refine absurd ?_ hordinary
      unfold isReserved
      rw [h]
      rfl
    · cases backend with
      | native => rw [hnativeBodies, hnative]
      | managed => rw [hmanagedBodies, hmanaged]
    · rw [hnativeBodies]
      exact native.coherent_table.native hnative
    · rw [hmanagedBodies]
      exact managed.coherent_table.managed hmanaged

/-- Whatever calls are made on a new method, misuses among them: the first that is not a misuse
succeeds and decides the standing, and no other call succeeds or changes anything. After each call
the method is declared as it was and regular. -/
theorem trace_of_new (declaration : Declaration) (location : Location) (calls : List Call) :
    let new : Method := ⟨declaration, location, .ordinary none⟩
    ((∀ c ∈ calls, c.misuse? ≠ none) ∧
        new.trace calls = calls.map (fun c => (c.answer new.name none, new)) ∨
      ∃ before decided after, calls = before ++ decided :: after ∧
        (∀ c ∈ before, c.misuse? ≠ none) ∧ decided.misuse? = none ∧
        let m : Method := ⟨declaration, location, decided.standing⟩
        new.trace calls = before.map (fun c => (c.answer new.name none, new)) ++
          (.ok (), m) :: after.map fun c => (c.answer new.name (some decided), m)) ∧
    ((new.trace calls).countP fun entry => entry.1.isOk) ≤ 1 ∧
    new.Regular ∧ ∀ entry ∈ new.trace calls, entry.2.declaration = declaration ∧
      entry.2.location = location ∧ entry.2.Regular := by
  intro new
  have hnew : new.Regular := regular_of_ordinary rfl
  rcases forall_not_or_exists_first (fun c : Call => c.misuse? = none) calls with
    hmisuses | ⟨decided, before, after, rfl, hbefore, hdecided⟩
  · have htrace := trace_of_misuses new hmisuses []
    rw [List.append_nil, trace, List.append_nil] at htrace
    refine ⟨.inl ⟨hmisuses, htrace⟩, ?_, hnew, fun entry hentry => ?_⟩
    · have hnone := countP_isOk_eq_zero
        (fun c hc => isOk_answer_of_misuse new.name none (hmisuses c hc)) new
      rw [htrace, hnone]
      exact Nat.zero_le 1
    · rw [htrace] at hentry
      obtain ⟨c, -, rfl⟩ := List.mem_map.1 hentry
      exact ⟨rfl, rfl, hnew⟩
  · have htrace := trace_of_decision (m := new) rfl hbefore hdecided after
    have hregular : Regular ⟨declaration, location, decided.standing⟩ :=
      regular_of_decided rfl hdecided
    refine ⟨.inr ⟨before, decided, after, rfl, hbefore, hdecided, htrace⟩, ?_, hnew,
      fun entry hentry => ?_⟩
    · have hmisuses := countP_isOk_eq_zero
        (fun c hc => isOk_answer_of_misuse new.name none (hbefore c hc)) new
      have hanswers : ∀ c ∈ after, (c.answer new.name (some decided)).isOk = false :=
        fun c _ => isOk_answer_of_decided new.name decided c
      have hrefused := countP_isOk_eq_zero hanswers ⟨declaration, location, decided.standing⟩
      rw [htrace, List.countP_append, List.countP_cons, hmisuses, hrefused]
      exact Nat.le_refl 1
    · rw [htrace] at hentry
      rcases List.mem_append.1 hentry with hentry | hentry
      · obtain ⟨c, -, rfl⟩ := List.mem_map.1 hentry
        exact ⟨rfl, rfl, hnew⟩
      · rcases List.mem_cons.1 hentry with rfl | hentry
        · exact ⟨rfl, rfl, hregular⟩
        · obtain ⟨c, -, rfl⟩ := List.mem_map.1 hentry
          exact ⟨rfl, rfl, hregular⟩

end Method
end Idl
