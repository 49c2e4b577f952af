import Idl.Proofs.Declarations
import Idl.Proofs.Readings

/-!
# What is declared can be declared again

A text is divided at its last colon, if it has one, into a type and a name. A variable is written
as the name of its type, a colon and its own name. Whatever text a variable was read from, the text
that it is written as is read as the same, in every scope.
-/

namespace Idl

namespace Text

variable {s : List Char}

theorem trim_eq_self_iff : trim s = s ↔ Trimmed s :=
  ⟨fun h => h ▸ trimmed_trim s, fun h => trim_of_padded h (.refl s)⟩

theorem mem_of_mem_trim {c : Char} (h : c ∈ trim s) : c ∈ s := by
  obtain ⟨lead, trail, heq, -⟩ := exists_eq_append_trim s
  rw [heq]
  exact List.mem_append_left trail (List.mem_append_right lead h)

theorem not_isBlankText_iff : ¬ isBlankText s ↔ trim s ≠ [] := trim_eq_nil_iff.symm.not

end Text

namespace TypeExpr

variable {n e : List Char} {depth : Nat}

/-- An expression is made up of its name and the number of vectors around it. -/
theorem eq_of_depth_eq {a b : TypeExpr} (hdepth : a.depth = b.depth)
    (hname : a.coreName = b.coreName) : a = b := by
  induction a generalizing b with
  | name n =>
    cases b with
    | name n' => exact congrArg name hname
    | vec b => cases hdepth
  | vec a ih =>
    cases b with
    | name n' => cases hdepth
    | vec b => exact congrArg vec (ih (Nat.succ.inj hdepth) hname)

/-- The canonical text of a reading is read as any other text of it. -/
theorem read_vecName (hn : IsName n) (h : Wraps n depth e) :
    read (vecName depth (String.ofList n)).toList = read e := by
  have hcanonical := wraps_vecName depth (String.ofList n)
  rw [String.toList_ofList] at hcanonical
  obtain ⟨hdepth, hname⟩ := read_of_wraps hn h
  obtain ⟨hdepth', hname'⟩ := read_of_wraps hn hcanonical
  exact eq_of_depth_eq (hdepth'.trans hdepth.symm) (hname'.trans hname.symm)

theorem trimmed_vecName {name : String} (hn : Text.Trimmed name.toList) (depth : Nat) :
    Text.Trimmed (vecName depth name).toList := by
  cases depth with
  | zero => exact hn
  | succ depth =>
    rw [vecName, String.toList_append, String.toList_append]
    exact trimmed_vec _

theorem vecName_eq_empty_iff {name : String} : vecName depth name = "" ↔ depth = 0 ∧ name = "" := by
  cases depth with
  | zero => simp [vecName]
  | succ depth => simp [vecName]

/-- Only a blank text is canonically empty. -/
theorem vecName_ne_empty (hn : IsName n) (h : Wraps n depth e) (he : Text.trim e ≠ []) :
    vecName depth (String.ofList n) ≠ "" := by
  rw [ne_eq, vecName_eq_empty_iff]
  rintro ⟨rfl, hempty⟩
  cases h with
  | name h =>
    rw [Text.trim_of_padded hn.trimmed h] at he
    exact he (String.ofList_eq_empty_iff.1 hempty)

theorem name_withRef (e : TypeExpr) (r : Ref) : (e.withRef r).name = vecName e.depth r.name := by
  rw [Ty.name_eq_vecName, depth_withRef, core_withRef]
  rfl

end TypeExpr

namespace Var

open Text (Trimmed)
open TypeExpr (IsName)

/-- The text is divided at its last colon, and neither part is blank. -/
structure Divides (text type name : String) : Prop where
  text_eq : text = type ++ ":" ++ name
  no_colon : ':' ∉ name.toList
  type_ne : Text.trim type.toList ≠ []
  name_ne : Text.trim name.toList ≠ []

/-- What a variable can be called in a declaration. -/
structure IsVarName (name : String) : Prop where
  ne_empty : name ≠ ""
  trimmed : Trimmed name.toList
  no_colon : ':' ∉ name.toList

/-- How a variable is written: as a declaration of it. -/
def declaration (v : Var) : String := v.type.name ++ ":" ++ v.name

variable {s : Scope} {text type name : String} {location : Location}

theorem split?_of_divides (h : Divides text type name) :
    split? text.toList = some (type.toList, Text.trim name.toList) := by
  obtain ⟨rfl, hcolon, htype, hname⟩ := h
  exact split?_eq_some_iff.2 ⟨name.toList, by simp, hcolon, Text.not_isBlankText_iff.2 htype,
    Text.not_isBlankText_iff.2 hname, rfl⟩

theorem exists_divides_of_split? {before after : List Char}
    (h : split? text.toList = some (before, after)) : ∃ type name, Divides text type name := by
  obtain ⟨after, htext, hafter, hbefore, hname, rfl⟩ := split?_eq_some_iff.1 h
  refine ⟨String.ofList before, String.ofList after, ?_, ?_, ?_, ?_⟩
  · rw [← String.toList_inj, htext]
    simp
  · rwa [String.toList_ofList]
  · rwa [String.toList_ofList, ← Text.not_isBlankText_iff]
  · rwa [String.toList_ofList, ← Text.not_isBlankText_iff]

theorem read_of_divides (s : Scope) (h : Divides text type name) (location : Location) :
    read s text location =
      let typed := s.instantiate (TypeExpr.read type.toList) location
      .ok (⟨String.ofList (Text.trim name.toList), typed.1, location⟩, typed.2) := by
  rw [read, split?_of_divides h]

theorem read_of_not_divides (s : Scope) (h : ¬ ∃ type name, Divides text type name)
    (location : Location) : read s text location = .error (.usage (.malformedVariable text)) := by
  cases hsplit : split? text.toList with
  | none => exact read_of_split?_eq_none hsplit s location
  | some parts => exact absurd (exists_divides_of_split? hsplit) h

theorem read_eq_ok_iff {v : Var} {s' : Scope} : read s text location = .ok (v, s') ↔
    ∃ type name, Divides text type name ∧ v.name = String.ofList (Text.trim name.toList) ∧
      v.location = location ∧
      (v.type, s') = s.instantiate (TypeExpr.read type.toList) location := by
  constructor
  · intro h
    by_cases hdivides : ∃ type name, Divides text type name
    · obtain ⟨type, name, hdivides⟩ := hdivides
      rw [read_of_divides s hdivides] at h
      obtain ⟨rfl, rfl⟩ := Prod.mk.inj (Except.ok.inj h)
      exact ⟨type, name, hdivides, rfl, rfl, rfl⟩
    · rw [read_of_not_divides s hdivides] at h
      cases h
  · obtain ⟨n, t, l⟩ := v
    rintro ⟨type, name, hdivides, rfl, rfl, htype⟩
    simp only [read_of_divides s hdivides, ← htype]

theorem read_eq_error_iff {failure : Failure} : read s text location = .error failure ↔
    (¬ ∃ type name, Divides text type name) ∧ failure = .usage (.malformedVariable text) := by
  constructor
  · intro h
    by_cases hdivides : ∃ type name, Divides text type name
    · obtain ⟨type, name, hdivides⟩ := hdivides
      rw [read_of_divides s hdivides] at h
      cases h
    · rw [read_of_not_divides s hdivides] at h
      exact ⟨hdivides, (Except.error.inj h).symm⟩
  · rintro ⟨hdivides, rfl⟩
    exact read_of_not_divides s hdivides location

/-- The name of a variable that has been read is one that a declaration can give. -/
theorem isVarName_of_divides (h : Divides text type name) :
    IsVarName (String.ofList (Text.trim name.toList)) := by
  refine ⟨fun hempty => h.name_ne (String.ofList_eq_empty_iff.1 hempty), ?_, ?_⟩
  · rw [String.toList_ofList]
    exact Text.trimmed_trim _
  · rw [String.toList_ofList]
    exact fun hcolon => h.no_colon (Text.mem_of_mem_trim hcolon)

theorem IsVarName.divides (hname : IsVarName name) (htype : Trimmed type.toList)
    (hne : type ≠ "") : Divides (type ++ ":" ++ name) type name := by
  refine ⟨rfl, hname.no_colon, ?_, ?_⟩
  · rwa [Text.trim_eq_self_iff.2 htype, ne_eq, String.toList_eq_nil_iff]
  · rw [Text.trim_eq_self_iff.2 hname.trimmed, ne_eq, String.toList_eq_nil_iff]
    exact hname.ne_empty

/-- A variable whose type is a name inside vectors is read back from its declaration. -/
theorem exists_read_declaration {v : Var} {r : Ref} (hname : IsVarName v.name)
    (hcore : v.type.core = .ref r) (hr : IsName r.name.toList) (hne : r.name ≠ "") (s : Scope)
    (location : Location) :
    ∃ v' s', read s v.declaration location = .ok (v', s') ∧ v'.name = v.name ∧
      v'.location = location ∧ v'.type.depth = v.type.depth ∧
      v'.type.core = .ref ⟨s.fresh, r.name, location⟩ := by
  have htype : v.type.name = vecName v.type.depth r.name := by
    rw [Ty.name_eq_vecName, hcore]
    rfl
  have hdivides : Divides v.declaration v.type.name v.name := by
    refine hname.divides ?_ ?_
    · rw [htype]
      exact TypeExpr.trimmed_vecName hr.trimmed _
    · rw [htype, ne_eq, TypeExpr.vecName_eq_empty_iff]
      exact fun h => hne h.2
  have hwraps := TypeExpr.wraps_vecName v.type.depth r.name
  obtain ⟨hdepth, hcoreName⟩ := TypeExpr.read_of_wraps hr hwraps
  rw [String.ofList_toList] at hcoreName
  refine ⟨_, _, read_of_divides s hdivides location, ?_, rfl, ?_, ?_⟩
  · rw [Text.trim_eq_self_iff.2 hname.trimmed, String.ofList_toList]
  · rw [htype]
    exact (TypeExpr.depth_withRef _ _).trans hdepth
  · rw [htype]
    refine (TypeExpr.core_withRef _ _).trans ?_
    rw [hcoreName]

/-- The declaration of a variable is read as the text that the variable was read from. -/
theorem read_declaration_of_read {v : Var} {s' : Scope}
    (h : read s text location = .ok (v, s')) (later : Scope) (location' : Location) :
    read later v.declaration location' = read later text location' := by
  obtain ⟨type, name, hdivides, hname, -, htype⟩ := read_eq_ok_iff.1 h
  obtain ⟨depth, n, hn, hwraps⟩ := TypeExpr.exists_wraps type.toList
  obtain ⟨hdepth, hcoreName⟩ := TypeExpr.read_of_wraps hn hwraps
  have hcanonical : v.type.name = vecName depth (String.ofList n) := by
    obtain ⟨htype, -⟩ := Prod.mk.inj htype
    rw [htype, ← hdepth, ← hcoreName]
    exact TypeExpr.name_withRef _ _
  have hagain : Divides v.declaration (vecName depth (String.ofList n)) v.name := by
    have htrimmed : Trimmed (String.ofList n).toList := String.toList_ofList ▸ hn.trimmed
    rw [declaration, hcanonical]
    refine IsVarName.divides ?_ (TypeExpr.trimmed_vecName htrimmed depth)
      (TypeExpr.vecName_ne_empty hn hwraps hdivides.type_ne)
    rw [hname]
    exact isVarName_of_divides hdivides
  have htrim : Text.trim v.name.toList = Text.trim name.toList := by
    rw [hname, String.toList_ofList, Text.trim_eq_self_iff.2 (Text.trimmed_trim _)]
  rw [read_of_divides later hagain, read_of_divides later hdivides, TypeExpr.read_vecName hn hwraps,
    htrim]

/-- A text is read as a variable if and only if it is divided at its last colon into two parts that
are not blank; the error for any other text quotes it. Reading the declaration of what was read
gives the same again. A variable that has a name inside vectors for its type is read back from its
declaration, up to the reference that stands for the name. -/
theorem read_exactly_and_redeclare (text : String) (s : Scope) (location : Location) :
    (∀ v s', read s text location = .ok (v, s') ↔
      ∃ type name, Divides text type name ∧ v.name = String.ofList (Text.trim name.toList) ∧
        v.location = location ∧
        (v.type, s') = s.instantiate (TypeExpr.read type.toList) location) ∧
    (∀ failure, read s text location = .error failure ↔
      (¬ ∃ type name, Divides text type name) ∧ failure = .usage (.malformedVariable text)) ∧
    (Usage.malformedVariable text).message = "expected TYPE:NAME, found '" ++ text ++ "'" ∧
    (∀ v s', read s text location = .ok (v, s') →
      read s v.declaration location = .ok (v, s') ∧
        ∀ later location', read later v.declaration location' = read later text location') ∧
    ∀ (v : Var) (r : Ref), IsVarName v.name → v.type.core = .ref r → IsName r.name.toList →
      r.name ≠ "" →
      ∃ v' s', read s v.declaration location = .ok (v', s') ∧ v'.name = v.name ∧
        v'.location = location ∧ v'.type.depth = v.type.depth ∧
        v'.type.core = .ref ⟨s.fresh, r.name, location⟩ := by
  refine ⟨fun v s' => read_eq_ok_iff, fun failure => read_eq_error_iff, rfl, fun v s' h => ?_,
    fun v r hname hcore hr hne => exists_read_declaration hname hcore hr hne s location⟩
  exact ⟨(read_declaration_of_read h s location).trans h, read_declaration_of_read h⟩

/-- The colons and brackets of a type stay with it. -/
theorem redeclare_colons_in_type :
    let v : Var := ⟨"code", .vec (.ref ⟨0, "ns::vec<>", .empty⟩), .empty⟩
    IsVarName v.name ∧ IsName "ns::vec<>".toList ∧ v.declaration = "vec<ns::vec<>>:code" ∧
      ∃ s', read .initial " vec<\tns::vec<> >: code\u3000" .empty = .ok (v, s') ∧
        read .initial v.declaration .empty = .ok (v, s') ∧
        ∃ v' s'', read s' v.declaration .empty = .ok (v', s'') ∧ v'.type.depth = 1 ∧
          v'.type.core = .ref ⟨1, "ns::vec<>", .empty⟩ := by
  intro v
  have htype : TypeExpr.read " vec<\tns::vec<> >".toList = .vec (.name "ns::vec<>") := by
    have hinside : TypeExpr.insideVec? (Text.trim " vec<\tns::vec<> >".toList) =
        some "\tns::vec<> ".toList := by decide
    rw [TypeExpr.read_of_insideVec?_eq_some hinside,
      TypeExpr.read_of_insideVec?_eq_none (by decide)]
    rfl
  have hname : IsVarName v.name :=
    ⟨by decide, Text.trim_eq_self_iff.1 (by decide), by decide⟩
  have hcore : IsName "ns::vec<>".toList :=
    ⟨Text.trim_eq_self_iff.1 (by decide), fun x hx => absurd (List.cons.inj hx).1 (by decide)⟩
  have hdivides : Divides " vec<\tns::vec<> >: code\u3000" " vec<\tns::vec<> >" " code\u3000" :=
    ⟨by decide, by decide, by decide, by decide⟩
  obtain ⟨hok, -, -, hagain, -⟩ := read_exactly_and_redeclare " vec<\tns::vec<> >: code\u3000"
    .initial .empty
  let s' := (Scope.initial.instantiate (.vec (.name "ns::vec<>")) .empty).2
  have hread := (hok v s').2 ⟨_, _, hdivides, by decide, rfl, by rw [htype]; rfl⟩
  obtain ⟨-, -, -, -, hback⟩ := read_exactly_and_redeclare "" s' .empty
  obtain ⟨v', s'', hread', -, -, hdepth, hcore'⟩ := hback v _ hname rfl hcore (by decide)
  exact ⟨hname, hcore, rfl, s', hread, (hagain v s' hread).1, v', s'', hread', hdepth, hcore'⟩

end Var
end Idl
