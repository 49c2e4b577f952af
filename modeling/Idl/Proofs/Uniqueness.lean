import Idl.Proofs.First
import Mathlib.Data.Finset.Dedup
import Mathlib.Data.Finset.Insert

/-!
# Lists of variables keep their names apart

A list of variables can be kept beside a set of the names in it, each updated on its own. However a
list is built and replaced, the set holds the names of the variables and answers as the list does.
Of variables added one after the other the first of each name stays; a list that is to be replaced
by others is refused for the first of them whose name stands before it.
-/

namespace Idl.VarList

/-- Variables and, beside them, a set of names. Nothing here makes the two agree. -/
structure Ledger where
  vars : List Var
  names : Finset String

/-- The ledger that agrees with a list. -/
def ledger (l : VarList) : Ledger := ⟨l.vars, l.names.toFinset⟩

namespace Ledger

def empty : Ledger := ⟨[], ∅⟩

def enter (k : Ledger) (name : String) : Ledger := { k with names := insert name k.names }

/-- The name is entered first, whether or not the variable is listed then. -/
def add (k : Ledger) (v : Var) : Bool × Ledger :=
  let entered := k.enter v.name
  if v.name ∈ k.names then (false, entered) else (true, { entered with vars := k.vars ++ [v] })

def addAll (k : Ledger) : List Var → Except Diagnostic Ledger
  | [] => .ok k
  | v :: rest =>
    match k.add v with
    | (true, longer) => longer.addAll rest
    | (false, _) => .error (.duplicateName v.name v.location)

end Ledger

inductive Call where
  | add (v : Var)
  /-- The list is left as it is if the variables make none. -/
  | replace (vs : List Var)

/-- Whether something was added, or why the list was not replaced. -/
abbrev Answer := Except Diagnostic Bool

/-- What is kept under the answer, or what was kept before. -/
def Call.orElse {σ : Type} (before : σ) : Except Diagnostic σ → Answer × σ
  | .ok after => (.ok true, after)
  | .error d => (.error d, before)

def call (l : VarList) : Call → Answer × VarList
  | .add v =>
    match l.add? v with
    | some longer => (.ok true, longer)
    | none => (.ok false, l)
  | .replace vs => Call.orElse l (ofList vs)

def Ledger.call (k : Ledger) : Call → Answer × Ledger
  | .add v => ((.ok (k.add v).1), (k.add v).2)
  | .replace vs => Call.orElse k (Ledger.empty.addAll vs)

/-- The answers to some calls, and what they leave, whatever a list is kept as. -/
def Call.run {σ : Type} (step : σ → Call → Answer × σ) (start : σ) : List Call → List Answer × σ
  | [] => ([], start)
  | c :: rest =>
    let later := run step (step start c).2 rest
    ((step start c).1 :: later.1, later.2)

variable {vs : List Var} {v : Var} {l : VarList}

theorem add?_of_mem (h : v.name ∈ l.names) : l.add? v = none := by
  rw [add?_eq_none_iff, contains]
  exact decide_eq_true h

theorem ledger_add_of_mem (h : v.name ∈ l.names) : l.ledger.add v = (false, l.ledger) := by
  have hmem : v.name ∈ l.ledger.names := List.mem_toFinset.2 h
  rw [Ledger.add, if_pos hmem, Ledger.enter, Finset.insert_eq_of_mem hmem]

theorem ledger_add_of_not_mem {longer : VarList} (h : v.name ∉ l.names)
    (hlonger : longer.vars = l.vars ++ [v]) : l.ledger.add v = (true, longer.ledger) := by
  have hmem : v.name ∉ l.ledger.names := fun hmem => h (List.mem_toFinset.1 hmem)
  have hnames : insert v.name l.names.toFinset = longer.names.toFinset := by
    ext name
    rw [Finset.mem_insert, List.mem_toFinset, List.mem_toFinset, names, names, hlonger,
      List.map_append, List.mem_append, List.map_singleton, List.mem_singleton, or_comm]
  rw [Ledger.add, if_neg hmem, ledger, ledger, ← hnames, hlonger]
  rfl

theorem ledger_addAll (l : VarList) (vs : List Var) :
    l.ledger.addAll vs = (vs.foldlM (fun (l : VarList) v =>
      match l.add? v with
      | some longer => Except.ok longer
      | none => .error (Diagnostic.duplicateName v.name v.location)) l).map ledger := by
  induction vs generalizing l with
  | nil => rfl
  | cons v rest ih =>
    by_cases h : v.name ∈ l.names
    · rw [List.foldlM_cons, add?_of_mem h, Ledger.addAll, ledger_add_of_mem h]
      rfl
    · obtain ⟨longer, hadd, hlonger⟩ := exists_add?_eq_some h
      rw [List.foldlM_cons, hadd, Ledger.addAll, ledger_add_of_not_mem h hlonger]
      exact ih longer

/-- A call does to the ledger of a list what it does to the list. -/
theorem ledger_call (l : VarList) (c : Call) :
    l.ledger.call c = ((l.call c).1, (l.call c).2.ledger) := by
  cases c with
  | add v =>
    by_cases h : v.name ∈ l.names
    · simp only [Ledger.call, call, ledger_add_of_mem h, add?_of_mem h]
    · obtain ⟨longer, hadd, hlonger⟩ := exists_add?_eq_some h
      simp only [Ledger.call, call, ledger_add_of_not_mem h hlonger, hadd]
  | replace vs =>
    have hempty : Ledger.empty.addAll vs = (ofList vs).map ledger := ledger_addAll empty vs
    rw [Ledger.call, call, hempty]
    cases ofList vs <;> rfl

theorem ledger_run (l : VarList) (calls : List Call) :
    Call.run Ledger.call l.ledger calls =
      ((Call.run call l calls).1, (Call.run call l calls).2.ledger) := by
  induction calls generalizing l with
  | nil => rfl
  | cons c rest ih => simp only [Call.run, ledger_call, ih]

theorem call_add (l : VarList) (v : Var) :
    (l.call (.add v)).1 = .ok (!l.contains v.name) ∧
      (l.call (.add v)).2.vars = if l.contains v.name then l.vars else l.vars ++ [v] := by
  by_cases h : v.name ∈ l.names
  · simp [call, add?_of_mem h, contains, h]
  · obtain ⟨longer, hadd, hlonger⟩ := exists_add?_eq_some h
    simp [call, hadd, contains, h, hlonger]

/-- Variables with names of their own stay, and of the others those with such a name go. -/
theorem eraseDupsBy_append {us : List Var} (h : (us.map Var.name).Nodup) (vs : List Var) :
    (us ++ vs).eraseDupsBy (fun v w => v.name == w.name) =
      us ++ (vs.filter fun v => v.name ∉ us.map Var.name).eraseDupsBy
        fun v w => v.name == w.name := by
  induction us generalizing vs with
  | nil => simp
  | cons u us ih =>
    rw [List.map_cons, List.nodup_cons] at h
    have hus : us.filter (fun v => (v.name == u.name) = false) = us := by
      rw [List.filter_eq_self]
      intro v hv
      have hne : v.name ≠ u.name := fun heq => h.1 (heq ▸ List.mem_map_of_mem hv)
      simpa using hne
    have hfilter : (vs.filter fun v => (v.name == u.name) = false).filter
        (fun v => v.name ∉ us.map Var.name) =
          vs.filter fun v => v.name ∉ (u :: us).map Var.name := by
      rw [List.filter_filter]
      refine List.filter_congr fun v _ => ?_
      by_cases hv : v.name = u.name <;> simp [hv]
    rw [List.cons_append, List.eraseDupsBy_cons, List.filter_append, hus, ih h.2, hfilter,
      List.cons_append]

theorem eraseDupsBy_append_cons {us : List Var} (h : (us.map Var.name).Nodup)
    (hv : v.name ∈ us.map Var.name) (vs : List Var) :
    (us ++ v :: vs).eraseDupsBy (fun v w => v.name == w.name) =
      (us ++ vs).eraseDupsBy fun v w => v.name == w.name := by
  rw [eraseDupsBy_append h, eraseDupsBy_append h, List.filter_cons_of_neg]
  simpa using hv

/-- Of variables that are added in turn, the first of each name stays. -/
theorem vars_run_add (l : VarList) (vs : List Var) :
    (Call.run call l (vs.map .add)).2.vars =
      (l.vars ++ vs).eraseDupsBy fun v w => v.name == w.name := by
  induction vs generalizing l with
  | nil =>
    rw [eraseDupsBy_append l.nodup]
    simp [Call.run]
  | cons v rest ih =>
    rw [List.map_cons, Call.run]
    by_cases h : v.name ∈ l.names
    · simp only [call, add?_of_mem h, ih]
      exact (eraseDupsBy_append_cons l.nodup h rest).symm
    · obtain ⟨longer, hadd, hlonger⟩ := exists_add?_eq_some h
      simp only [call, hadd, ih, hlonger, List.append_assoc, List.singleton_append]

theorem eq_of_vars_eq {l' : VarList} (h : l.vars = l'.vars) : l = l' := by
  cases l
  cases l'
  cases h
  rfl

theorem ofList_eq_ok_iff : ofList vs = .ok l ↔ (vs.map Var.name).Nodup ∧ l.vars = vs := by
  constructor
  · intro h
    rcases nodup_or_exists_firstRepeat Var.name vs with hnodup | ⟨v, hv⟩
    · obtain ⟨l', hl', hvars⟩ := exists_ofList_eq_ok hnodup
      rw [h] at hl'
      cases hl'
      exact ⟨hnodup, hvars⟩
    · rw [ofList_of_firstRepeat hv] at h
      cases h
  · rintro ⟨hnodup, rfl⟩
    obtain ⟨l', hl', hvars⟩ := exists_ofList_eq_ok hnodup
    rw [hl', eq_of_vars_eq hvars]

theorem ofList_eq_error_iff {d : Diagnostic} : ofList vs = .error d ↔
    ∃ v, FirstRepeat Var.name vs v ∧ d = .duplicateName v.name v.location := by
  constructor
  · intro h
    rcases nodup_or_exists_firstRepeat Var.name vs with hnodup | ⟨v, hv⟩
    · obtain ⟨l', hl', -⟩ := exists_ofList_eq_ok hnodup
      rw [h] at hl'
      cases hl'
    · rw [ofList_of_firstRepeat hv] at h
      exact ⟨v, hv, (Except.error.inj h).symm⟩
  · rintro ⟨v, hv, rfl⟩
    exact ofList_of_firstRepeat hv

/-- Whatever calls a list has seen, a ledger that has seen them has given the same answers and
agrees with it: no two variables share a name, and the names that are taken are theirs. A variable
with a new name comes last, any other changes nothing, so of some that are added in turn the first
of each name stays. A list is made of variables if their names differ, and else refused for the
first whose name stands before it. -/
theorem keeps_names_apart (calls : List Call) :
    let k := Call.run Ledger.call .empty calls
    let l := Call.run call empty calls
    k = (l.1, l.2.ledger) ∧
    (k.2.vars.map Var.name).Nodup ∧
    (∀ name, name ∈ k.2.names ↔ ∃ v ∈ k.2.vars, v.name = name) ∧
    (∀ name, l.2.contains name ↔ ∃ v ∈ l.2.vars, v.name = name) ∧
    (∀ v, (l.2.call (.add v)).1 = .ok (!l.2.contains v.name) ∧
      (l.2.call (.add v)).2.vars =
        if l.2.contains v.name then l.2.vars else l.2.vars ++ [v]) ∧
    (∀ vs, (Call.run call l.2 (vs.map .add)).2.vars =
      (l.2.vars ++ vs).eraseDupsBy fun v w => v.name == w.name) ∧
    (∀ vs l', ofList vs = .ok l' ↔ (vs.map Var.name).Nodup ∧ l'.vars = vs) ∧
    ∀ vs d, ofList vs = .error d ↔
      ∃ v, FirstRepeat Var.name vs v ∧ d = .duplicateName v.name v.location := by
  intro k l
  have hk : k = (l.1, l.2.ledger) := ledger_run empty calls
  refine ⟨hk, ?_, fun name => ?_, fun name => contains_iff, call_add l.2, vars_run_add l.2,
    fun vs l' => ofList_eq_ok_iff, fun vs d => ofList_eq_error_iff⟩
  · rw [hk]
    exact l.2.nodup
  · rw [hk]
    exact List.mem_toFinset.trans List.mem_map

end Idl.VarList
