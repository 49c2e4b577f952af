import Idl.Proofs.First
import Idl.Proofs.Readings
import Idl.Request.Declared

/-!
# Reading declarations

A text declares a variable if it is a type, a colon and a name, neither of the two blank and the
name without a colon. The type is a name inside some vectors. Whatever else a text is, it is
malformed, and reading a list of texts stops at the first that is. Reading makes new references and
leaves everything that is bound or resolved as it is.
-/

namespace Idl

namespace Var

open Text (IsWhite Trimmed Padded)
open TypeExpr (IsName Wraps)

/-- The text declares a variable of that name, whose type is the name `core` inside this many
vectors. -/
def Declares (text : String) (depth : Nat) (core name : String) : Prop :=
  ∃ before after, text.toList = before ++ ':' :: after ∧ ':' ∉ after ∧
    (∃ c ∈ before, ¬ IsWhite c) ∧ (∃ c ∈ after, ¬ IsWhite c) ∧
    IsName core.toList ∧ Wraps core.toList depth before ∧
    Trimmed name.toList ∧ Padded name.toList after

theorem split?_eq_some_iff {s type name : List Char} : split? s = some (type, name) ↔
    ∃ after, s = type ++ ':' :: after ∧ ':' ∉ after ∧ ¬ Text.isBlankText type ∧
      ¬ Text.isBlankText after ∧ name = Text.trim after := by
  constructor
  · intro h
    unfold split? at h
    cases hcut : Text.splitAtLast? ':' s with
    | none =>
      rw [hcut] at h
      cases h
    | some parts =>
      obtain ⟨before, after⟩ := parts
      rw [hcut] at h
      obtain ⟨hs, hafter⟩ := Text.eq_append_of_splitAtLast? hcut
      by_cases hblank : (Text.isBlankText before || Text.isBlankText after) = true
      · simp [hblank] at h
      · simp only [hblank] at h
        obtain ⟨rfl, rfl⟩ := Prod.mk.inj (Option.some.inj h)
        simp only [Bool.or_eq_true, not_or] at hblank
        exact ⟨after, hs, hafter, hblank.1, hblank.2, rfl⟩
  · rintro ⟨after, rfl, hafter, htype, hname, rfl⟩
    rw [split?, Text.splitAtLast?_append hafter]
    simp [htype, hname]

variable {s : Scope} {text core name : String} {depth : Nat}

theorem read_of_split?_eq_none (h : split? text.toList = none) (s : Scope) (location : Location) :
    read s text location = .error (.usage (.malformedVariable text)) := by
  rw [read, h]

/-- A declaration is read as a new reference to the name inside the vectors. -/
theorem read_of_declares (s : Scope) (h : Declares text depth core name) (location : Location) :
    ∃ type : TypeExpr, type.depth = depth ∧ type.coreName = core ∧ read s text location =
      .ok (⟨name, (s.instantiate type location).1, location⟩, (s.instantiate type location).2) := by
  obtain ⟨before, after, htext, hafter, hbefore, hname, hcore, hwraps, htrimmed, hpadded⟩ := h
  have hsplit : split? text.toList = some (before, Text.trim after) :=
    split?_eq_some_iff.2 ⟨after, htext, hafter, Text.not_isBlankText_iff_exists.2 hbefore,
      Text.not_isBlankText_iff_exists.2 hname, rfl⟩
  rw [Text.trim_of_padded htrimmed hpadded] at hsplit
  obtain ⟨hdepth, hcoreName⟩ := TypeExpr.read_of_wraps hcore hwraps
  rw [String.ofList_toList] at hcoreName
  refine ⟨TypeExpr.read before, hdepth, hcoreName, ?_⟩
  rw [read, hsplit]
  change Except.ok (Var.mk (String.ofList name.toList) _ _, _) = _
  rw [String.ofList_toList]
  rfl

theorem exists_declares_of_split? {type after : List Char}
    (h : split? text.toList = some (type, after)) :
    ∃ depth core name, Declares text depth core name := by
  obtain ⟨after, htext, hafter, hbefore, hname, rfl⟩ := split?_eq_some_iff.1 h
  obtain ⟨depth, n, hn, hwraps⟩ := TypeExpr.exists_wraps type
  refine ⟨depth, String.ofList n, String.ofList (Text.trim after), type, after, htext, hafter,
    Text.not_isBlankText_iff_exists.1 hbefore, Text.not_isBlankText_iff_exists.1 hname, ?_⟩
  rw [String.toList_ofList, String.toList_ofList]
  exact ⟨hn, hwraps, Text.trimmed_trim after, Text.padded_trim after⟩

theorem read_of_malformed (s : Scope) (h : ¬ ∃ depth core name, Declares text depth core name)
    (location : Location) : read s text location = .error (.usage (.malformedVariable text)) := by
  cases hsplit : split? text.toList with
  | none => exact read_of_split?_eq_none hsplit s location
  | some parts => exact absurd (exists_declares_of_split? hsplit) h

end Var

namespace Request

/-- What a declaration says, and where it stands: a name, and for the type the name `core` inside
this many vectors. -/
structure Entry where
  depth : Nat
  core : String
  name : String
  location : Location

/-- The variable is as the entry says, and its type refers by name to what it is built from. -/
def Entry.Describes (e : Entry) (v : Var) : Prop :=
  v.name = e.name ∧ v.location = e.location ∧ v.type.depth = e.depth ∧
    ∃ id, v.type.core = .ref ⟨id, e.core, e.location⟩

/-- The texts declare the entries, each in its column of the line, the first in the given one. -/
inductive Declares (line : Nat) : Nat → List String → List Entry → Prop
  | nil (column : Nat) : Declares line column [] []
  | cons {column depth : Nat} {text core name : String} {rest : List String} {es : List Entry} :
    Var.Declares text depth core name → Declares line (column + 1) rest es →
    Declares line column (text :: rest)
      (⟨depth, core, name, ⟨some "<command line>", ⟨line, column⟩, ⟨line, column⟩⟩⟩ :: es)

def Malformed (text : String) : Prop := ¬ ∃ depth core name, Var.Declares text depth core name

variable {line column : Nat} {s : Scope} {texts : List String} {es : List Entry} {text : String}
  {e : Entry}

theorem Declares.length_eq (h : Declares line column texts es) : es.length = texts.length := by
  induction h with
  | nil => rfl
  | cons _ _ ih => rw [List.length_cons, List.length_cons, ih]

theorem exists_declares (line column : Nat) (h : ∀ text ∈ texts, ¬ Malformed text) :
    ∃ es, Declares line column texts es := by
  induction texts generalizing column with
  | nil => exact ⟨[], .nil column⟩
  | cons text rest ih =>
    obtain ⟨depth, core, name, htext⟩ := Classical.not_not.1 (h text List.mem_cons_self)
    obtain ⟨es, hes⟩ := ih (column + 1) fun text' h' => h text' (List.mem_cons_of_mem text h')
    exact ⟨_, .cons htext hes⟩

theorem readVars_of_declares (s : Scope) (h : Declares line column texts es) :
    ∃ vs s', readVars line s column texts = .ok (vs, s') ∧ List.Forall₂ Entry.Describes es vs ∧
      s'.bindings = s.bindings ∧ s'.targets = s.targets := by
  induction h generalizing s with
  | nil column => exact ⟨[], s, rfl, .nil, rfl, rfl⟩
  | @cons column depth text core name rest es htext _ ih =>
    let location : Location := ⟨some "<command line>", ⟨line, column⟩, ⟨line, column⟩⟩
    obtain ⟨type, rfl, rfl, hread⟩ := Var.read_of_declares s htext location
    obtain ⟨vs, s', hrest, hvs, hbindings, htargets⟩ := ih (s.instantiate type location).2
    refine ⟨⟨name, (s.instantiate type location).1, location⟩ :: vs, s', ?_, ?_, hbindings,
      htargets⟩
    · change (Var.read s text location).bind _ = _
      rw [hread]
      change (readVars line (s.instantiate type location).2 (column + 1) rest).bind _ = _
      rw [hrest]
      rfl
    · exact .cons ⟨rfl, rfl, type.depth_withRef _, s.fresh, type.core_withRef _⟩ hvs

theorem readVars_of_malformed (s : Scope) (column : Nat) (h : First Malformed texts text) :
    readVars line s column texts = .error (.usage (.malformedVariable text)) := by
  obtain ⟨before, after, rfl, hbefore, htext⟩ := h
  induction before generalizing s column with
  | nil =>
    rw [List.nil_append, readVars, Var.read_of_malformed s htext]
    rfl
  | cons text' before ih =>
    obtain ⟨depth, core, name, htext'⟩ := Classical.not_not.1 (hbefore text' List.mem_cons_self)
    obtain ⟨type, -, -, hread⟩ := Var.read_of_declares s htext' (.point commandLine line column)
    rw [List.cons_append, readVars, hread]
    change (readVars line _ (column + 1) _).bind _ = _
    rw [ih _ _ fun t ht => hbefore t (List.mem_cons_of_mem text' ht)]
    rfl

theorem map_name_of_describes {vs : List Var} (h : List.Forall₂ Entry.Describes es vs) :
    vs.map Var.name = es.map Entry.name :=
  map_eq_map_of_forall₂ h fun _ _ _ hv => hv.1

theorem readVarList_eq_bind (line : Nat) (s : Scope) (texts : List String) :
    readVarList line s texts = (readVars line s 1 texts).bind fun read =>
      ((VarList.ofList read.1).mapError Failure.semantic).bind fun l => .ok (l, read.2) := rfl

theorem readVarList_of_malformed (s : Scope) (h : First Malformed texts text) :
    readVarList line s texts = .error (.usage (.malformedVariable text)) := by
  rw [readVarList_eq_bind, readVars_of_malformed s 1 h]
  rfl

theorem readVarList_of_firstRepeat (s : Scope) (hes : Declares line 1 texts es)
    (h : FirstRepeat Entry.name es e) :
    readVarList line s texts = .error (.semantic (.duplicateName e.name e.location)) := by
  obtain ⟨vs, s', hread, hvs, -⟩ := readVars_of_declares s hes
  obtain ⟨before, after, rfl, hnodup, hmem⟩ := h
  obtain ⟨before', v, after', rfl, hbefore, -, hv⟩ := exists_eq_append_of_forall₂ hvs
  have hnames := map_name_of_describes hbefore
  have hrepeat : FirstRepeat Var.name (before' ++ v :: after') v := by
    refine ⟨before', after', rfl, ?_, ?_⟩
    · rwa [hnames]
    · rwa [hnames, hv.1]
  have hlist := VarList.ofList_of_firstRepeat hrepeat
  rw [hv.1, hv.2.1] at hlist
  rw [readVarList_eq_bind, hread, Except.bind, hlist]
  rfl

theorem readVarList_of_nodup (s : Scope) (hes : Declares line 1 texts es)
    (h : (es.map Entry.name).Nodup) :
    ∃ l s', readVarList line s texts = .ok (l, s') ∧ List.Forall₂ Entry.Describes es l.vars ∧
      s'.bindings = s.bindings ∧ s'.targets = s.targets := by
  obtain ⟨vs, s', hread, hvs, hbindings, htargets⟩ := readVars_of_declares s hes
  rw [← map_name_of_describes hvs] at h
  obtain ⟨l, hl, rfl⟩ := VarList.exists_ofList_eq_ok h
  refine ⟨l, s', ?_, hvs, hbindings, htargets⟩
  rw [readVarList_eq_bind, hread, Except.bind, hl]
  rfl

end Request
end Idl
