import Idl.Proofs.Registration
import Idl.Scope
import Mathlib.Data.List.Nodup

/-!
# Tables hold what was accepted last

Each attempt to register a body is accepted or refused by what the table holds at the time. For a
role the table has the body that was accepted last. A table that is made of entries, all of which
must be accepted, exists if and only if no two of the entries exclude each other, and where no role
occurs twice their order has no influence.
-/

namespace Idl.BodyTable

variable {t : BodyTable} {role : Role} {body : Body} {backend : Backend}
  {entries : List (Role × Body)}

/-- The backend does not have the role, or not beside one that the table holds. -/
def Excludes (t : BodyTable) (role : Role) : Prop :=
  t.backend = .managed ∧ role = .stubImpl ∨
    t.backend = .native ∧
      (role = .stub ∧ t.contains .stubImpl ∨ role = .stubImpl ∧ t.contains .stub)

instance (t : BodyTable) (role : Role) : Decidable (t.Excludes role) :=
  inferInstanceAs (Decidable (_ ∧ _ ∨ _ ∧ (_ ∧ _ ∨ _ ∧ _)))

/-- The reason for which a backend excludes roles. -/
def exclusion : Backend → Refusal
  | .managed => .stubImplOnManaged
  | .native => .stubShadowsStubImpl

/-- No table of the backend holds all the roles that are taken. -/
def Clash (taken : Role → Prop) : Backend → Prop
  | .managed => taken .stubImpl
  | .native => taken .stub ∧ taken .stubImpl

instance (taken : Role → Prop) [DecidablePred taken] :
    (backend : Backend) → Decidable (Clash taken backend)
  | .managed => inferInstanceAs (Decidable (taken .stubImpl))
  | .native => inferInstanceAs (Decidable (taken .stub ∧ taken .stubImpl))

/-- The role is in the table or in the entries that are to come. -/
def Takes (t : BodyTable) (entries : List (Role × Body)) (role : Role) : Prop :=
  t.contains role ∨ role ∈ entries.map Prod.fst

/-- Those of the entries that are accepted, each as the table is when it comes. -/
def accepted (t : BodyTable) : List (Role × Body) → List (Role × Body)
  | [] => []
  | entry :: rest =>
    match t.register entry.1 entry.2 with
    | .ok registered => entry :: registered.accepted rest
    | .error _ => t.accepted rest

def setAll (t : BodyTable) (entries : List (Role × Body)) : BodyTable :=
  entries.foldl (fun t entry => t.set entry.1 entry.2) t

def Attempts.accepted (a : Attempts) : List (Role × Body) := (empty a.backend).accepted a.entries

theorem refusal?_eq (t : BodyTable) (role : Role) :
    t.refusal? role = if t.Excludes role then some (exclusion t.backend) else none := by
  obtain ⟨backend, get?⟩ := t
  cases backend <;> cases role <;> simp [refusal?, Excludes, exclusion]

theorem register_of_excludes (h : t.Excludes role) (body : Body) :
    t.register role body = .error (exclusion t.backend) := by
  rw [register, refusal?_eq, if_pos h]

theorem register_of_not_excludes (h : ¬ t.Excludes role) (body : Body) :
    t.register role body = .ok (t.set role body) := by
  rw [register, refusal?_eq, if_neg h]

theorem register_eq_error_iff {refusal : Refusal} : t.register role body = .error refusal ↔
    t.Excludes role ∧ refusal = exclusion t.backend := by
  by_cases h : t.Excludes role
  · rw [register_of_excludes h]
    exact ⟨fun heq => ⟨h, (Except.error.inj heq).symm⟩, fun heq => congrArg Except.error heq.2.symm⟩
  · rw [register_of_not_excludes h]
    exact ⟨nofun, fun heq => absurd heq.1 h⟩

theorem attempt_eq (t : BodyTable) (role : Role) (body : Body) :
    t.attempt role body = if t.Excludes role then t else t.set role body := by
  unfold attempt
  by_cases h : t.Excludes role
  · rw [register_of_excludes h, if_pos h]
  · rw [register_of_not_excludes h, if_neg h]

theorem setAll_cons (t : BodyTable) (entry : Role × Body) (rest : List (Role × Body)) :
    t.setAll (entry :: rest) = (t.set entry.1 entry.2).setAll rest := rfl

/-- The last entry of a role decides. -/
theorem setAll_eq (t : BodyTable) (entries : List (Role × Body)) :
    t.setAll entries = ⟨t.backend, fun role => (entries.reverse.lookup role).or (t.get? role)⟩ := by
  induction entries generalizing t with
  | nil => rfl
  | cons entry rest ih =>
    obtain ⟨r, body⟩ := entry
    rw [setAll_cons, ih, backend_set]
    congr 1
    funext role
    rw [List.reverse_cons, List.lookup_append, Option.or_assoc, get?_set, List.lookup_cons]
    by_cases h : role = r <;> simp [h, beq_eq_false_iff_ne.2]

theorem foldl_attempt (t : BodyTable) (entries : List (Role × Body)) :
    entries.foldl (fun t entry => t.attempt entry.1 entry.2) t = t.setAll (t.accepted entries) := by
  induction entries generalizing t with
  | nil => rfl
  | cons entry rest ih =>
    rw [List.foldl_cons, attempt_eq, ih, accepted]
    by_cases h : t.Excludes entry.1
    · rw [if_pos h, register_of_excludes h]
    · rw [if_neg h, register_of_not_excludes h, setAll_cons]

theorem clash_congr {taken taken' : Role → Prop} (h : ∀ role, taken role ↔ taken' role) :
    Clash taken backend ↔ Clash taken' backend := by
  cases backend with
  | managed => exact h .stubImpl
  | native => exact and_congr (h .stub) (h .stubImpl)

theorem takes_cons {entry : Role × Body} {rest : List (Role × Body)} :
    t.Takes (entry :: rest) role ↔ (t.set entry.1 entry.2).Takes rest role := by
  rw [Takes, Takes, contains_set, List.map_cons, List.mem_cons]
  tauto

/-- A coherent table clashes with nothing that it holds. -/
theorem Coherent.not_clash (h : t.Coherent) : ¬ Clash (t.Takes []) t.backend := by
  have htakes : ∀ r, t.Takes [] r ↔ t.contains r := fun r => by simp [Takes]
  rw [clash_congr htakes]
  obtain ⟨backend, get?⟩ := t
  cases backend with
  | managed => exact h.managed rfl
  | native => exact h.native rfl

/-- An entry that is excluded clashes with what the table holds. -/
theorem Excludes.clash {entry : Role × Body} (h : t.Excludes entry.1) (rest : List (Role × Body)) :
    Clash (t.Takes (entry :: rest)) t.backend := by
  have hentry : t.Takes (entry :: rest) entry.1 := .inr List.mem_cons_self
  rcases h with ⟨hbackend, hrole⟩ | ⟨hbackend, ⟨hrole, hother⟩ | ⟨hrole, hother⟩⟩
  all_goals
    rw [hrole] at hentry
    rw [hbackend]
  · exact hentry
  · exact ⟨hentry, .inl hother⟩
  · exact ⟨.inl hother, hentry⟩

/-- Either the roles of the table and the entries clash, or all entries are accepted. -/
theorem foldlM_register (ht : t.Coherent) (entries : List (Role × Body)) :
    Clash (t.Takes entries) t.backend ∧
        entries.foldlM (fun t entry => t.register entry.1 entry.2) t =
          .error (exclusion t.backend) ∨
      ¬ Clash (t.Takes entries) t.backend ∧
        entries.foldlM (fun t entry => t.register entry.1 entry.2) t = .ok (t.setAll entries) := by
  induction entries generalizing t with
  | nil => exact .inr ⟨ht.not_clash, rfl⟩
  | cons entry rest ih =>
    rw [List.foldlM_cons]
    by_cases h : t.Excludes entry.1
    · rw [register_of_excludes h]
      exact .inl ⟨h.clash rest, rfl⟩
    · have hset := ht.set (by rw [refusal?_eq, if_neg h]) entry.2
      rw [register_of_not_excludes h, clash_congr fun _ => takes_cons]
      exact ih hset

theorem ofList_cases (backend : Backend) (entries : List (Role × Body)) :
    Clash (· ∈ entries.map Prod.fst) backend ∧
        ofList backend entries = .error (exclusion backend) ∨
      ¬ Clash (· ∈ entries.map Prod.fst) backend ∧
        ofList backend entries = .ok ((empty backend).setAll entries) := by
  have htakes : ∀ r, r ∈ entries.map Prod.fst ↔ (empty backend).Takes entries r :=
    fun r => by simp [Takes, not_contains_empty]
  rw [clash_congr htakes]
  exact foldlM_register (coherent_empty backend) entries

/-- Among entries of different roles, each is found by its role. -/
theorem lookup_eq_some_iff_mem (h : (entries.map Prod.fst).Nodup) :
    entries.lookup role = some body ↔ (role, body) ∈ entries := by
  refine ⟨Scope.mem_of_lookup_eq_some, fun hmem => ?_⟩
  cases hlookup : entries.lookup role with
  | none => simpa using List.lookup_eq_none_iff.1 hlookup _ hmem
  | some body' =>
    have hmem' := Scope.mem_of_lookup_eq_some hlookup
    rw [(Prod.mk.inj (List.inj_on_of_nodup_map h hmem' hmem rfl)).2]

theorem lookup_perm {entries' : List (Role × Body)} (h : entries.Perm entries')
    (hnodup : (entries.map Prod.fst).Nodup) (role : Role) :
    entries.lookup role = entries'.lookup role := by
  have hnodup' : (entries'.map Prod.fst).Nodup := (h.map Prod.fst).nodup_iff.1 hnodup
  apply Option.ext
  intro body
  rw [lookup_eq_some_iff_mem hnodup, lookup_eq_some_iff_mem hnodup', h.mem_iff]

theorem setAll_perm {entries' : List (Role × Body)} (h : entries.Perm entries')
    (hnodup : (entries.map Prod.fst).Nodup) : t.setAll entries = t.setAll entries' := by
  have hreverse : (entries.reverse.map Prod.fst).Nodup := by
    rwa [List.map_reverse, List.nodup_reverse]
  have hperm : entries.reverse.Perm entries'.reverse :=
    (List.reverse_perm entries).trans (h.trans (List.reverse_perm entries').symm)
  rw [setAll_eq, setAll_eq]
  congr 1
  funext role
  rw [lookup_perm hperm hreverse]

/-- In whatever order the entries come, the table made of them is the same. -/
theorem ofList_perm {entries' : List (Role × Body)} (h : entries.Perm entries')
    (hnodup : (entries.map Prod.fst).Nodup) (backend : Backend) :
    ofList backend entries' = ofList backend entries := by
  have hroles : ∀ role, role ∈ entries.map Prod.fst ↔ role ∈ entries'.map Prod.fst :=
    fun role => (h.map Prod.fst).mem_iff
  rcases ofList_cases backend entries with ⟨hclash, hentries⟩ | ⟨hclash, hentries⟩
  · rcases ofList_cases backend entries' with ⟨-, hentries'⟩ | ⟨hclash', -⟩
    · rw [hentries, hentries']
    · exact absurd ((clash_congr hroles).1 hclash) hclash'
  · rcases ofList_cases backend entries' with ⟨hclash', -⟩ | ⟨-, hentries'⟩
    · exact absurd ((clash_congr hroles).2 hclash') hclash
    · rw [hentries, hentries', setAll_perm h hnodup]

namespace Attempts

variable (a : Attempts)

theorem table_eq : a.table = (empty a.backend).setAll a.accepted := foldl_attempt _ _

theorem get?_table (role : Role) : a.table.get? role = a.accepted.reverse.lookup role := by
  rw [table_eq, setAll_eq]
  exact Option.or_none

theorem contains_table_iff {role : Role} :
    a.table.contains role ↔ ∃ body, (role, body) ∈ a.accepted := by
  rw [contains, get?_table, List.lookup_isSome_iff]
  constructor
  · rintro ⟨⟨r, body⟩, hmem, hr⟩
    exact ⟨body, eq_of_beq hr ▸ List.mem_reverse.1 hmem⟩
  · rintro ⟨body, hmem⟩
    exact ⟨(role, body), List.mem_reverse.2 hmem, beq_self_eq_true role⟩

theorem table_append (role : Role) (body : Body) :
    (Attempts.mk a.backend (a.entries ++ [(role, body)])).table = a.table.attempt role body :=
  List.foldl_append

end Attempts

theorem ofList_eq_ok_iff : ofList backend entries = .ok t ↔
    ¬ Clash (· ∈ entries.map Prod.fst) backend ∧ t = (Attempts.mk backend entries).table := by
  rcases ofList_cases backend entries with ⟨hclash, hentries⟩ | ⟨hclash, hentries⟩
  · rw [hentries]
    exact ⟨nofun, fun h => absurd hclash h.1⟩
  · rw [Attempts.table_of_ofList hentries, hentries]
    exact ⟨fun h => ⟨hclash, (Except.ok.inj h).symm⟩, fun h => congrArg Except.ok h.2.symm⟩

theorem ofList_eq_error_iff {refusal : Refusal} : ofList backend entries = .error refusal ↔
    Clash (· ∈ entries.map Prod.fst) backend ∧ refusal = exclusion backend := by
  rcases ofList_cases backend entries with ⟨hclash, hentries⟩ | ⟨hclash, hentries⟩
  · rw [hentries]
    exact ⟨fun h => ⟨hclash, (Except.error.inj h).symm⟩, fun h => congrArg Except.error h.2.symm⟩
  · rw [hentries]
    exact ⟨nofun, fun h => absurd h.1 hclash⟩

/-- Whatever has been attempted, a table holds for each role the body that was accepted last, and an
attempt is refused exactly if the role is excluded, which leaves the table as it is. The roles of a
table are listed in order, each once, and its backend has all of them. Entries make a table by
themselves if and only if their roles do not clash. It is the table that attempts with them make,
and if no role comes twice, it is the same in any order. -/
theorem holds_last_accepted (a : Attempts) :
    (∀ role, a.table.get? role = a.accepted.reverse.lookup role) ∧
    (∀ role body refusal, a.table.register role body = .error refusal ↔
      a.table.Excludes role ∧ refusal = exclusion a.backend) ∧
    (∀ role body, (Attempts.mk a.backend (a.entries ++ [(role, body)])).table =
      if a.table.Excludes role then a.table else a.table.set role body) ∧
    (a.table.roles.Sublist Role.all ∧ a.table.roles.Nodup ∧
      ∀ role, role ∈ a.table.roles ↔ ∃ body, (role, body) ∈ a.accepted) ∧
    (a.table.backend = a.backend ∧ a.table.Coherent) ∧
    (∀ t, ofList a.backend a.entries = .ok t ↔
      ¬ Clash (· ∈ a.entries.map Prod.fst) a.backend ∧ t = a.table) ∧
    (∀ refusal, ofList a.backend a.entries = .error refusal ↔
      Clash (· ∈ a.entries.map Prod.fst) a.backend ∧ refusal = exclusion a.backend) ∧
    ∀ entries, a.entries.Perm entries → (a.entries.map Prod.fst).Nodup →
      ofList a.backend entries = ofList a.backend a.entries := by
  refine ⟨a.get?_table, fun role body refusal => ?_, fun role body => ?_,
    ⟨List.filter_sublist, Role.nodup_all.filter _,
      fun role => mem_roles.trans a.contains_table_iff⟩,
    ⟨a.backend_table, a.coherent_table⟩, fun t => ofList_eq_ok_iff,
    fun refusal => ofList_eq_error_iff, fun entries h hnodup => ofList_perm h hnodup a.backend⟩
  · rw [register_eq_error_iff, a.backend_table]
  · rw [a.table_append, attempt_eq]

/-- The roles come in their own order, in whatever order they are registered. -/
theorem reordered_native_table :
    let entries : List (Role × Body) :=
      [(.passthrough, .empty), (.stub, .lines ["return;"]), (.interface, .empty)]
    entries.Perm entries.reverse ∧ (entries.map Prod.fst).Nodup ∧
      ofList .native entries.reverse = ofList .native entries ∧
      ∃ t, ofList .native entries = .ok t ∧ t.roles = [.interface, .stub, .passthrough] := by
  intro entries
  have hperm : entries.Perm entries.reverse := (List.reverse_perm entries).symm
  have hnodup : (entries.map Prod.fst).Nodup := by decide
  obtain ⟨-, -, -, -, -, hok, -, hreorder⟩ := holds_last_accepted ⟨.native, entries⟩
  exact ⟨hperm, hnodup, hreorder _ hperm hnodup, _, (hok _).2 ⟨by decide, rfl⟩, by decide⟩

end Idl.BodyTable
