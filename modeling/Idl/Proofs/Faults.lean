import Idl.Proofs.Drafts

/-!
# The faults of a request

A request that names a method either gets it or has one fault, the first that is found: no name,
then what is wrong with the declared arguments, with the declared results, with the types in both,
with the method as a whole and with its annotations. The types are looked up among the builtin ones
alone, since nothing else is declared.
-/

namespace Idl.Request

variable {r : Request} {name : String} {s : Scope} {as rs : List Entry}

/-- The fault of a request for a method of the name. Each kind comes with what rules out those
before it. -/
inductive Fault (r : Request) (name : String) : Failure → Prop
  | unnamed : name = "" → Fault r name (.usage .emptyMethodName)
  | malformedArgument {text : String} :
    name ≠ "" → First Malformed r.args text → Fault r name (.usage (.malformedVariable text))
  | repeatedArgument {as : List Entry} {e : Entry} :
    name ≠ "" → Declares 1 1 r.args as → FirstRepeat Entry.name as e →
    Fault r name (.semantic (.duplicateName e.name e.location))
  | malformedResult {as : List Entry} {text : String} :
    name ≠ "" → Declares 1 1 r.args as → (as.map Entry.name).Nodup →
    First Malformed r.results text → Fault r name (.usage (.malformedVariable text))
  | repeatedResult {as rs : List Entry} {e : Entry} :
    name ≠ "" → Declares 1 1 r.args as → (as.map Entry.name).Nodup → Declares 2 1 r.results rs →
    FirstRepeat Entry.name rs e → Fault r name (.semantic (.duplicateName e.name e.location))
  | unboundType {as rs : List Entry} {e : Entry} :
    Drafted r name as rs → First Unbound (as ++ rs) e →
    Fault r name (.semantic (.inMethod name r.span
      (.unresolvedType e.core e.location)))
  | onewayWithResults {as rs : List Entry} :
    Drafted r name as rs → (∀ e ∈ as ++ rs, ¬ Unbound e) → r.oneway → r.results ≠ [] →
    Fault r name (.semantic (.inMethod name r.span .onewayWithResults))
  | misnamedNote {as rs : List Entry} {text : String} :
    Drafted r name as rs → (∀ e ∈ as ++ rs, ¬ Unbound e) → ¬ (r.oneway ∧ r.results ≠ []) →
    First Misnamed r.annotations text →
    Fault r name (.semantic (.inMethod name r.span
      (.annotationRejected (bareName text) "name is not an identifier")))

/-- A request without a fault. -/
structure Faultless (r : Request) (name : String) (as rs : List Entry) : Prop
    extends Drafted r name as rs where
  bound : ∀ e ∈ as ++ rs, ¬ Unbound e
  resultless : ¬ (r.oneway ∧ r.results ≠ [])
  named : ∀ text ∈ r.annotations, ¬ Misnamed text

theorem exists_fault_or_faultless (r : Request) (name : String) :
    (∃ f, Fault r name f) ∨ ∃ as rs, Faultless r name as rs := by
  by_cases hname : name = ""
  · exact .inl ⟨_, .unnamed hname⟩
  rcases forall_not_or_exists_first Malformed r.args with hargs | ⟨text, htext⟩
  swap
  · exact .inl ⟨_, .malformedArgument hname htext⟩
  obtain ⟨as, has⟩ := exists_declares 1 1 hargs
  rcases nodup_or_exists_firstRepeat Entry.name as with hnodup | ⟨e, he⟩
  swap
  · exact .inl ⟨_, .repeatedArgument hname has he⟩
  rcases forall_not_or_exists_first Malformed r.results with hresults | ⟨text, htext⟩
  swap
  · exact .inl ⟨_, .malformedResult hname has hnodup htext⟩
  obtain ⟨rs, hrs⟩ := exists_declares 2 1 hresults
  rcases nodup_or_exists_firstRepeat Entry.name rs with hnodup' | ⟨e, he⟩
  swap
  · exact .inl ⟨_, .repeatedResult hname has hnodup hrs he⟩
  have hdraft : Drafted r name as rs := ⟨hname, has, hnodup, hrs, hnodup'⟩
  rcases forall_not_or_exists_first Unbound (as ++ rs) with hbound | ⟨e, he⟩
  swap
  · exact .inl ⟨_, .unboundType hdraft he⟩
  by_cases honeway : r.oneway ∧ r.results ≠ []
  · exact .inl ⟨_, .onewayWithResults hdraft hbound honeway.1 honeway.2⟩
  rcases forall_not_or_exists_first Misnamed r.annotations with hnamed | ⟨text, htext⟩
  swap
  · exact .inl ⟨_, .misnamedNote hdraft hbound honeway htext⟩
  exact .inr ⟨as, rs, hdraft, hbound, honeway, hnamed⟩

theorem declared_eq_bind (s : Scope) (hname : r.name = some name) :
    r.declared s = (r.draft s name).bind fun drafted =>
      ((drafted.1.analyze drafted.2).verdict.mapError Failure.semantic).bind fun _ =>
        .ok (some drafted.1, (drafted.1.analyze drafted.2).scope) := by
  rw [declared, hname]
  rfl

theorem declared_of_draft_error {f : Failure} (hname : r.name = some name)
    (h : r.draft s name = .error f) : r.declared s = .error f := by
  rw [declared_eq_bind s hname, h]
  rfl

/-- A drafted method is handed over, or refused with what its analysis says. -/
theorem exists_declared_of_drafted (hname : r.name = some name) (h : Drafted r name as rs)
    (hs : Builtin s) : ∃ m s', Drawn r name as rs m ∧ Builtin s' ∧
      r.declared s = ((m.analyze s').verdict.mapError Failure.semantic).bind fun _ =>
        .ok (some m, (m.analyze s').scope) := by
  obtain ⟨m, s', hdraft, hdrawn, hbindings, htargets⟩ := exists_draft_eq_ok s h
  refine ⟨m, s', hdrawn, ⟨hbindings.trans hs.bindings_eq, htargets.trans hs.targets_eq⟩, ?_⟩
  rw [declared_eq_bind s hname, hdraft]
  rfl

theorem declared_of_verdict_error {d : Diagnostic} (hname : r.name = some name)
    (h : Drafted r name as rs) (hs : Builtin s)
    (hverdict : ∀ m s', Drawn r name as rs m → Builtin s' →
      (m.analyze s').verdict = .error (.inMethod m.name m.location d)) :
    r.declared s = .error (.semantic (.inMethod name r.span d)) := by
  obtain ⟨m, s', hdrawn, hs', hdeclared⟩ := exists_declared_of_drafted hname h hs
  rw [hdeclared, hverdict m s' hdrawn hs', hdrawn.name_eq, hdrawn.location_eq]
  rfl

theorem Fault.declared_eq {f : Failure} (hname : r.name = some name) (h : Fault r name f)
    (hs : Builtin s) : r.declared s = .error f := by
  cases h with
  | unnamed h =>
    apply declared_of_draft_error hname
    rw [draft, if_pos h]
  | malformedArgument hne htext =>
    apply declared_of_draft_error hname
    rw [draft_eq_bind r s hne, readVarList_of_malformed s htext]
    rfl
  | repeatedArgument hne has he =>
    apply declared_of_draft_error hname
    rw [draft_eq_bind r s hne, readVarList_of_firstRepeat s has he]
    rfl
  | malformedResult hne has hnodup htext =>
    obtain ⟨args, s₁, hargs, -⟩ := readVarList_of_nodup s has hnodup
    apply declared_of_draft_error hname
    rw [draft_eq_bind r s hne, hargs, Except.bind, readVarList_of_malformed s₁ htext]
    rfl
  | repeatedResult hne has hnodup hrs he =>
    obtain ⟨args, s₁, hargs, -⟩ := readVarList_of_nodup s has hnodup
    apply declared_of_draft_error hname
    rw [draft_eq_bind r s hne, hargs, Except.bind, readVarList_of_firstRepeat s₁ hrs he]
    rfl
  | unboundType hdraft he =>
    exact declared_of_verdict_error hname hdraft hs fun m s' hm hs' => hm.verdict_of_unbound hs' he
  | onewayWithResults hdraft hbound honeway hresults =>
    exact declared_of_verdict_error hname hdraft hs fun m s' hm hs' =>
      hm.verdict_of_oneway hdraft hs' hbound honeway hresults
  | misnamedNote hdraft hbound hsound htext =>
    exact declared_of_verdict_error hname hdraft hs fun m s' hm hs' =>
      hm.verdict_of_misnamed hdraft hs' hbound hsound htext

theorem Faultless.exists_declared_eq (hname : r.name = some name) (h : Faultless r name as rs)
    (hs : Builtin s) : ∃ m s', r.declared s = .ok (some m, s') ∧ Drawn r name as rs m := by
  obtain ⟨m, s', hdrawn, hs', hdeclared⟩ := exists_declared_of_drafted hname h.toDrafted hs
  refine ⟨m, (m.analyze s').scope, ?_, hdrawn⟩
  rw [hdeclared, hdrawn.verdict_of_sound h.toDrafted hs' h.bound h.resultless h.named]
  rfl

/-- Over the builtin types alone, a request that names a method is refused exactly with its fault.
If it has none, the method is as the request declares it. -/
theorem declared_initial (r : Request) :
    match r.name with
    | none => r.declared .initial = .ok (none, .initial)
    | some name =>
      (∀ f, r.declared .initial = .error f ↔ Fault r name f) ∧
        ((∃ f, Fault r name f) ∨ ∃ m s as rs, r.declared .initial = .ok (some m, s) ∧
          Faultless r name as rs ∧ Drawn r name as rs m) := by
  cases hname : r.name with
  | none => simp only [declared, hname]
  | some name =>
    have hinitial : Builtin .initial := ⟨rfl, rfl⟩
    refine ⟨fun f => ⟨fun hf => ?_, fun hf => hf.declared_eq hname hinitial⟩, ?_⟩
    · rcases exists_fault_or_faultless r name with ⟨f', hf'⟩ | ⟨as, rs, hr⟩
      · rw [hf'.declared_eq hname hinitial] at hf
        obtain rfl := Except.error.inj hf
        exact hf'
      · obtain ⟨m, s, hok, -⟩ := hr.exists_declared_eq hname hinitial
        rw [hok] at hf
        cases hf
    · rcases exists_fault_or_faultless r name with hf | ⟨as, rs, hr⟩
      · exact .inl hf
      · obtain ⟨m, s, hok, hdrawn⟩ := hr.exists_declared_eq hname hinitial
        exact .inr ⟨m, s, as, rs, hok, hr, hdrawn⟩

end Idl.Request
