import Idl.Proofs.Blame
import Idl.Proofs.Standing
import Mathlib.Data.List.Perm.Basic

/-!
# Catalogues in any scope

A scope may bind the names of the builtin types anew, to whatever it likes. The entries name only
`string` and `handle`, so what these stand for decides whether a catalogue is built. The methods may
be declared in any order: they are sorted by serial before they are analysed, and so it is always
the method of the same entry that a failure is reported for.
-/

namespace Idl

open Scope (Steady)

namespace Serial

theorem le_last_of_ofIndex? {index : UInt64} {n : UInt32} (h : ofIndex? index = some n) :
    n ≤ last := by
  change (if index.toNat + first.toNat ≤ last.toNat then _ else _) = _ at h
  by_cases hle : index.toNat + first.toNat ≤ last.toNat
  · rw [if_pos hle] at h
    cases h
    have hlt := Nat.lt_of_le_of_lt hle last.toNat_lt
    rw [UInt32.le_iff_toNat_le, UInt32.toNat_ofNat_of_lt' hlt]
    exact hle
  · rw [if_neg hle] at h
    cases h

end Serial

namespace Method

/-- The place of a method in the order by serial. Without a serial it comes first. -/
def rank (m : Method) : Nat :=
  match m.serial? with
  | none => 0
  | some n => n.toNat + 1

/-- Both methods have a serial, and the first has the smaller one. -/
def Precedes (m m' : Method) : Prop :=
  ∃ n n', m.serial? = some n ∧ m'.serial? = some n' ∧ n < n'

theorem Precedes.rank_lt {m m' : Method} (h : m.Precedes m') : m.rank < m'.rank := by
  obtain ⟨n, n', hn, hn', hlt⟩ := h
  rw [rank, rank, hn, hn']
  exact Nat.succ_lt_succ (UInt32.lt_iff_toNat_lt.1 hlt)

end Method

namespace Catalogue

variable {s s' s₁ : Scope} {interface : String} {chain : List String} {es : List Entry} {e : Entry}
  {m : Method} {ms : List Method} {d : Diagnostic}

def sorted (ms : List Method) : List Method := ms.mergeSort fun m m' => m.rank ≤ m'.rank

/-- The methods of some entries, declared in this order and analysed by serial, and the scope after
their analysis. -/
def buildFrom (s : Scope) (es : List Entry) : Except Failure (List Method × Scope) := do
  let (ms, s) ← declareAll s es
  let report := s.analyzeAll (sorted ms)
  report.verdict.mapError .semantic
  return (sorted ms, report.scope)

theorem buildFrom_eq_bind (s : Scope) (es : List Entry) :
    buildFrom s es = (declareAll s es).bind fun drafted =>
      let report := drafted.2.analyzeAll (sorted drafted.1)
      (report.verdict.mapError Failure.semantic).bind fun _ =>
        .ok (sorted drafted.1, report.scope) := rfl

theorem find?_name_eq_some (h : (ms.map Method.name).Nodup) (hm : m ∈ ms) :
    find? ms m.name = some m := by
  obtain ⟨before, after, rfl⟩ := List.append_of_mem hm
  rw [List.map_append, List.map_cons] at h
  obtain ⟨-, -, hdisjoint⟩ := List.nodup_append.1 h
  refine List.find?_eq_some_iff_append.2 ⟨beq_self_eq_true _, before, after, rfl, fun m' hm' => ?_⟩
  have hne := hdisjoint m'.name (List.mem_map_of_mem hm') m.name List.mem_cons_self
  rw [beq_eq_false_iff_ne.2 hne]
  rfl

theorem find?_eq_none (name : String) (h : name ∉ ms.map Method.name) : find? ms name = none := by
  refine List.find?_eq_none.2 fun m hm heq => h ?_
  rw [← beq_iff_eq.1 heq]
  exact List.mem_map_of_mem hm

theorem ascending_entries (interface : String) (chain : List String) :
    (entries interface chain).Pairwise fun e e' => e.serial < e'.serial := by
  have hserials : (entries interface chain).map Entry.serial = [Serial.chain, Serial.debug,
      Serial.descriptor, Serial.instrumentation, Serial.ping, Serial.sysprops] := rfl
  refine List.pairwise_map.1 ?_
  rw [hserials]
  decide

theorem nodup_names_entries (interface : String) (chain : List String) :
    ((entries interface chain).map Entry.name).Nodup := by
  have hnames : (entries interface chain).map Entry.name = ["interfaceChain", "debug",
      "interfaceDescriptor", "setHALInstrumentation", "ping", "notifySyspropsChanged"] := rfl
  rw [hnames]
  decide

theorem last_lt_serial (h : e ∈ entries interface chain) : Serial.last < e.serial := by
  simp only [entries, List.mem_cons, List.not_mem_nil, or_false] at h
  rcases h with rfl | rfl | rfl | rfl | rfl | rfl <;> exact of_decide_eq_true rfl

namespace Entry.Declares

theorem serial?_eq (h : e.Declares s m) : m.serial? = some e.serial := by
  obtain ⟨native, managed, -, -, hstanding⟩ := h.standing_eq
  rw [Method.serial?, hstanding]

theorem isReserved (h : e.Declares s m) : m.isReserved := by
  obtain ⟨native, managed, -, -, hstanding⟩ := h.standing_eq
  rw [Method.isReserved, hstanding]

theorem regular (h : e.Declares s m) : m.Regular := by
  obtain ⟨native, managed, hnative, hmanaged, hstanding⟩ := h.standing_eq
  rw [← BodyTable.Attempts.table_of_ofList hnative,
    ← BodyTable.Attempts.table_of_ofList hmanaged] at hstanding
  let call := Method.Call.reserve e.serial ⟨.native, e.native⟩ ⟨.managed, e.managed⟩
  have hcall : m.standing = call.standing := hstanding
  exact Method.regular_of_decided hcall rfl

theorem wrap_eq (h : e.Declares s m) (d : Diagnostic) : m.wrap d = .inMethod e.name .empty d := by
  rw [Method.wrap, h.name_eq, h.location_eq]

end Entry.Declares

theorem ascending_of_declares (h : List.Forall₂ (Entry.Declares s) (entries interface chain) ms) :
    ms.Pairwise Method.Precedes := by
  have hserials : ms.map Method.serial? = (entries interface chain).map fun e => some e.serial :=
    map_eq_map_of_forall₂ h fun _ _ _ hm => hm.serial?_eq
  have hascending : (ms.map Method.serial?).Pairwise fun o o' =>
      ∃ n n', o = some n ∧ o' = some n' ∧ n < n' := by
    rw [hserials]
    refine List.pairwise_map.2 ((ascending_entries interface chain).imp fun hlt => ?_)
    exact ⟨_, _, rfl, rfl, hlt⟩
  rw [List.pairwise_map] at hascending
  exact hascending

/-- Sorting puts methods of the entries into the order of the entries. -/
theorem sorted_eq_of_perm (hms : List.Forall₂ (Entry.Declares s) (entries interface chain) ms)
    {ms' : List Method} (h : ms'.Perm ms) : sorted ms' = ms := by
  have hascending := (ascending_of_declares hms).imp Method.Precedes.rank_lt
  have hnodup : (ms.map Method.rank).Nodup :=
    List.pairwise_map.2 (hascending.imp Nat.ne_of_lt)
  have hsorted : (sorted ms').Pairwise fun m m' => m.rank ≤ m'.rank := by
    refine (List.pairwise_mergeSort ?_ ?_ ms').imp of_decide_eq_true
    · intro a b c hab hbc
      exact decide_eq_true (Nat.le_trans (of_decide_eq_true hab) (of_decide_eq_true hbc))
    · intro a b
      rcases Nat.le_total a.rank b.rank with hab | hba
      · simp [hab]
      · simp [hba]
  -- No two of the methods have one rank, so they ascend in one order only.
  have hperm : (sorted ms').Perm ms := (List.mergeSort_perm ms' _).trans h
  refine List.Perm.eq_of_pairwise ?_ hsorted (hascending.imp Nat.le_of_lt) hperm
  intro a b ha hb hab hba
  exact List.inj_on_of_nodup_map hnodup (hperm.subset ha) hb (Nat.le_antisymm hab hba)

/-- However the entries are ordered, their methods are analysed in the order of the catalogue. -/
theorem exists_buildFrom_eq (s : Scope) (hes : es.Perm (entries interface chain)) :
    ∃ ms s₁, List.Forall₂ (Entry.Declares s) (entries interface chain) ms ∧ Steady s s₁ ∧
      buildFrom s es = ((s₁.analyzeAll ms).verdict.mapError Failure.semantic).bind fun _ =>
        .ok (ms, (s₁.analyzeAll ms).scope) := by
  have hsound : ∀ e ∈ es, e.Sound := fun e he => sound_of_mem_entries (hes.subset he)
  obtain ⟨drafted, s₁, hdraft, hdeclares, hbindings, htargets⟩ := exists_declareAll_eq_ok hsound s
  obtain ⟨ms, hms, hperm⟩ := List.perm_comp_forall₂ hes.symm hdeclares
  refine ⟨ms, s₁, hms, .of_eq hbindings htargets, ?_⟩
  rw [← sorted_eq_of_perm hms hperm.symm]
  rw [buildFrom_eq_bind, hdraft]
  rfl

theorem build_eq_buildFrom (s : Scope) (interface : String) (chain : List String) :
    build s interface chain = buildFrom s (entries interface chain) := by
  have hsound : ∀ e ∈ entries interface chain, e.Sound := fun _ => sound_of_mem_entries
  obtain ⟨ms, s₁, hdraft, hdeclares, -⟩ := exists_declareAll_eq_ok hsound s
  have hsorted : sorted ms = ms := sorted_eq_of_perm hdeclares (.refl ms)
  rw [build_eq_bind, draft, buildFrom_eq_bind, hdraft]
  simp only [Except.bind, hsorted]

theorem verdict_of_bad_string
    (hms : List.Forall₂ (Entry.Declares s) (entries interface chain) ms) (hs : Steady s s₁)
    (hwalks : ∀ t, s.lookup? "string" = some t → ¬ s.Circular t)
    (hd : s.verdictOf "string" = .error d) :
    (s₁.analyzeAll ms).verdict = .error (.inMethod "interfaceChain" .empty d) := by
  obtain ⟨m, rest, hm, -, rfl⟩ := List.forall₂_cons_left_iff.1 hms
  have hdecls : (interfaceChain (if chain.isEmpty then [interface] else chain)).args ++
      (interfaceChain (if chain.isEmpty then [interface] else chain)).results =
        [] ++ (strings, "descriptors") :: [] := rfl
  have hfaulty := hm.faulty (sound_of_mem_entries List.mem_cons_self) hdecls nofun hwalks hd
  have hbefore : ∀ m' ∈ ([] : List Method), m'.Ready s₁ := nofun
  rw [← List.nil_append (m :: rest), Scope.analyzeAll_of_faulty hbefore (hfaulty.of_steady hs),
    hm.wrap_eq]
  rfl

theorem verdict_of_bad_handle
    (hms : List.Forall₂ (Entry.Declares s) (entries interface chain) ms) (hs : Steady s s₁)
    (hstring : s.Bears "string") (hwalks : ∀ t, s.lookup? "handle" = some t → ¬ s.Circular t)
    (hd : s.verdictOf "handle" = .error d) :
    (s₁.analyzeAll ms).verdict = .error (.inMethod "debug" .empty d) := by
  have hsound : ∀ e ∈ entries interface chain, e.Sound := fun _ => sound_of_mem_entries
  obtain ⟨hfirst, hrest⟩ := List.forall_mem_cons.1 hsound
  obtain ⟨hsecond, -⟩ := List.forall_mem_cons.1 hrest
  obtain ⟨m₁, others, hm₁, hothers, rfl⟩ := List.forall₂_cons_left_iff.1 hms
  obtain ⟨m₂, rest, hm₂, -, rfl⟩ := List.forall₂_cons_left_iff.1 hothers
  have hready : m₁.Ready s := by
    refine hm₁.ready hfirst fun decl hdecl => ?_
    rw [List.mem_singleton.1 hdecl]
    exact hstring
  have hfaulty : m₂.Faulty s d := by
    have hdecls : debug.args ++ debug.results =
        [] ++ (.name "handle", "fd") :: [(strings, "options")] := rfl
    refine hm₂.faulty hsecond hdecls (fun decl hdecl => ?_) hwalks hd
    rw [List.mem_singleton.1 hdecl]
    exact hstring
  have hbefore : ∀ m' ∈ [m₁], m'.Ready s₁ := by
    intro m' hm'
    rw [List.mem_singleton.1 hm']
    exact hready.of_steady hs
  have hverdict := Scope.analyzeAll_of_faulty hbefore (hfaulty.of_steady hs) rest
  rw [hm₂.wrap_eq] at hverdict
  exact hverdict

/-- What holds of the methods of a catalogue. -/
structure Enrolled (s : Scope) (es : List Entry) (ms : List Method) : Prop where
  names_eq : ms.map Method.name = es.map Entry.name
  ascending : ms.Pairwise Method.Precedes
  reserved : ∀ m ∈ ms, m.isReserved
  not_ordinary : ∀ m ∈ ms, ∀ index n, Serial.ofIndex? index = some n → m.serial? ≠ some n
  regular : ∀ m ∈ ms, m.Regular
  find?_name : ∀ m ∈ ms, find? ms m.name = some m
  find?_other : ∀ name, name ∉ ms.map Method.name → find? ms name = none
  resolved : ∀ m ∈ ms, ∀ v ∈ m.args ++ m.results, ∃ depth l, s.Resolved v.type depth l

theorem enrolled_of_settled (hms : List.Forall₂ (Entry.Declares s) (entries interface chain) ms)
    (hsettled : ∀ m ∈ ms, m.Settled s') : Enrolled s' (entries interface chain) ms := by
  have hdeclared : ∀ m ∈ ms, ∃ e ∈ entries interface chain, e.Declares s m :=
    fun m hm => exists_of_mem_of_forall₂ hms hm
  have hnames : ms.map Method.name = (entries interface chain).map Entry.name :=
    map_eq_map_of_forall₂ hms fun _ _ _ hm => hm.name_eq
  refine ⟨hnames, ascending_of_declares hms, fun m hm => ?_, fun m hm index n hn => ?_,
    fun m hm => ?_, fun m hm => ?_, find?_eq_none, fun m hm v hv => ?_⟩
  · obtain ⟨e, -, he⟩ := hdeclared m hm
    exact he.isReserved
  · obtain ⟨e, hmem, he⟩ := hdeclared m hm
    rw [he.serial?_eq]
    rintro ⟨⟩
    exact absurd (Serial.le_last_of_ofIndex? hn) (UInt32.not_le.2 (last_lt_serial hmem))
  · obtain ⟨e, -, he⟩ := hdeclared m hm
    exact he.regular
  · refine find?_name_eq_some ?_ hm
    rw [hnames]
    exact nodup_names_entries interface chain
  · rcases List.mem_append.1 hv with hv | hv
    · exact hsettled m hm (.argument v) (by simp [Method.nodes, hv])
    · exact hsettled m hm (.result v) (by simp [Method.nodes, hv])

/-- Whatever a scope binds, the checks of what `string` and `handle` stand for decide whether the
entries of an interface, in any order, become a catalogue. If they do not, the first of the two that
fails is reported, in the first method by serial that uses it. -/
theorem build_follows_verdicts {s : Scope} {interface : String} {chain : List String}
    {es : List Entry} (hes : es.Perm (entries interface chain))
    (hwalks : ∀ name t, name = "string" ∨ name = "handle" → s.lookup? name = some t →
      ¬ s.Circular t) :
    build s interface chain = buildFrom s (entries interface chain) ∧
      (∀ d, s.verdictOf "string" = .error d →
        buildFrom s es = .error (.semantic (.inMethod "interfaceChain" .empty d))) ∧
      (s.verdictOf "string" = .ok () → ∀ d, s.verdictOf "handle" = .error d →
        buildFrom s es = .error (.semantic (.inMethod "debug" .empty d))) ∧
      (s.verdictOf "string" = .ok () → s.verdictOf "handle" = .ok () →
        ∃ ms s', buildFrom s es = .ok (ms, s') ∧ Enrolled s' (entries interface chain) ms) := by
  obtain ⟨ms, s₁, hms, hsteady, hbuild⟩ := exists_buildFrom_eq s hes
  refine ⟨build_eq_buildFrom s interface chain, fun d hd => ?_, fun hstring d hd => ?_,
    fun hstring hhandle => ?_⟩
  · rw [hbuild, verdict_of_bad_string hms hsteady (fun t => hwalks _ t (.inl rfl)) hd]
    rfl
  · rw [hbuild, verdict_of_bad_handle hms hsteady (Scope.bears_of_verdictOf hstring)
      (fun t => hwalks _ t (.inr rfl)) hd]
    rfl
  · have hbears : ∀ name, name = "string" ∨ name = "handle" → s.Bears name := by
      rintro name (rfl | rfl)
      · exact Scope.bears_of_verdictOf hstring
      · exact Scope.bears_of_verdictOf hhandle
    have hready := ready_of_declares (fun _ => sound_of_mem_entries) hms hbears
    obtain ⟨hverdict, -, -, hsettled⟩ :=
      Scope.analyzeAll_of_ready fun m hm => (hready m hm).of_steady hsteady
    refine ⟨ms, (s₁.analyzeAll ms).scope, ?_, enrolled_of_settled hms hsettled⟩
    rw [hbuild, hverdict]
    rfl

/-- Declared in another order: `string` stands for a vector by way of an alias, and `handle` for a
type that evaluates but does not validate. -/
theorem build_blames_rebound_handle :
    let text : Ty := .leaf (.foreign (.spelled "Text" (fun _ => "Text") "Text"))
    let fault : Diagnostic := .unresolvedType "Fds" (.point "types.hal" 3 7)
    let fds : Ty := .leaf (.foreign
      { Foreign.spelled "Fds" (fun _ => "Fds") "Fds" with validation := .error fault })
    let s := ((Scope.initial.bind "string" (.vec (.ref ⟨0, "Text", .empty⟩))).bind "Text" text).bind
      "handle" fds
    let es := [interfaceChain ["a.b@1.0::IFoo"], interfaceDescriptor "a.b@1.0::IFoo",
      notifySyspropsChanged, debug, setHALInstrumentation, ping]
    es.Perm (entries "a.b@1.0::IFoo" []) ∧
      buildFrom s es = .error (.semantic (.inMethod "debug" .empty fault)) := by
  intro text fault fds s es
  let descriptor := interfaceDescriptor "a.b@1.0::IFoo"
  have hdebug : ([descriptor, notifySyspropsChanged] ++ debug :: [setHALInstrumentation, ping]).Perm
      (debug :: ([descriptor, notifySyspropsChanged] ++ [setHALInstrumentation, ping])) :=
    List.perm_middle
  have hlast : ([notifySyspropsChanged] ++ [setHALInstrumentation, ping]).Perm
      ([setHALInstrumentation, ping] ++ [notifySyspropsChanged]) := List.perm_append_comm
  have hes : es.Perm (entries "a.b@1.0::IFoo" []) :=
    .cons _ (hdebug.trans (.cons _ (.cons _ hlast)))
  have hwalks : ∀ name t, name = "string" ∨ name = "handle" → s.lookup? name = some t →
      ¬ s.Circular t := by
    rintro name t (rfl | rfl) ht
    · cases ht
      exact Scope.exists_walk_iff_not_circular.1 ⟨_, _, _, .vec (.hop rfl (.leaf _))⟩
    · cases ht
      exact Scope.exists_walk_iff_not_circular.1 ⟨_, _, _, .leaf _⟩
  obtain ⟨-, -, hblame, -⟩ := build_follows_verdicts hes hwalks
  exact ⟨hes, hblame rfl fault rfl⟩

end Catalogue
end Idl
