import Idl.Annotation
import Idl.Proofs.First

/-!
# Objections to an annotation

An annotation is objected to if its name is not an identifier, and else if a parameter has the name
of one before it. The objection to a name comes first, the one to parameters names the first that
repeats. What the parameters are set to is never looked at.
-/

namespace Idl

/-- Letters and digits are those of ASCII. -/
def IsLetter (c : Char) : Prop := 'a' ≤ c ∧ c ≤ 'z' ∨ 'A' ≤ c ∧ c ≤ 'Z'

def IsDigit (c : Char) : Prop := '0' ≤ c ∧ c ≤ '9'

/-- A letter or underscore, then letters, digits and underscores. -/
def IsIdentifier (name : String) : Prop :=
  ∃ c rest, name.toList = c :: rest ∧ (IsLetter c ∨ c = '_') ∧
    ∀ d ∈ rest, IsLetter d ∨ IsDigit d ∨ d = '_'

theorem isAlpha_iff {c : Char} : c.isAlpha = true ↔ IsLetter c := by
  have hlower : c.isLower = (decide ('a' ≤ c) && decide (c ≤ 'z')) := rfl
  have hupper : c.isUpper = decide ('A' ≤ c ∧ c ≤ 'Z') := rfl
  change (c.isUpper || c.isLower) = true ↔ _
  rw [Bool.or_eq_true, or_comm, hlower, Bool.and_eq_true, decide_eq_true_iff, decide_eq_true_iff,
    hupper, decide_eq_true_iff, IsLetter]

theorem isDigit_iff {c : Char} : c.isDigit = true ↔ IsDigit c := by
  have hdigit : c.isDigit = (decide ('0' ≤ c) && decide (c ≤ '9')) := rfl
  rw [hdigit, Bool.and_eq_true, decide_eq_true_iff, decide_eq_true_iff, IsDigit]

theorem isIdentifierStart_iff {c : Char} : isIdentifierStart c = true ↔ IsLetter c ∨ c = '_' := by
  rw [isIdentifierStart, Bool.or_eq_true, isAlpha_iff, beq_iff_eq]

theorem isIdentifierRest_iff {c : Char} :
    isIdentifierRest c = true ↔ IsLetter c ∨ IsDigit c ∨ c = '_' := by
  change ((c.isAlpha || c.isDigit) || c == '_') = true ↔ _
  rw [Bool.or_eq_true, Bool.or_eq_true, isAlpha_iff, isDigit_iff, beq_iff_eq, or_assoc]

theorem isIdentifier_iff {name : String} : isIdentifier name = true ↔ IsIdentifier name := by
  rw [isIdentifier, IsIdentifier]
  cases name.toList with
  | nil => simp
  | cons c rest =>
    rw [Bool.and_eq_true, isIdentifierStart_iff, List.all_eq_true]
    constructor
    · rintro ⟨hc, hrest⟩
      exact ⟨c, rest, rfl, hc, fun d hd => isIdentifierRest_iff.1 (hrest d hd)⟩
    · rintro ⟨_, _, heq, hc, hrest⟩
      obtain ⟨rfl, rfl⟩ := List.cons.inj heq
      exact ⟨hc, fun d hd => isIdentifierRest_iff.2 (hrest d hd)⟩

namespace Annotation

variable {name : String} {params : List Param} {p : Param}

/-- Names that are new and differ are all put among those that have been seen. -/
theorem firstRepeat?_append {seen before : List String} (hnodup : before.Nodup)
    (hnew : ∀ name ∈ before, name ∉ seen) (after : List String) :
    firstRepeat? seen (before ++ after) = firstRepeat? (before.reverse ++ seen) after := by
  induction before generalizing seen with
  | nil => rfl
  | cons first rest ih =>
    obtain ⟨hfirst, hrest⟩ := List.nodup_cons.1 hnodup
    obtain ⟨hfirstNew, hrestNew⟩ := List.forall_mem_cons.1 hnew
    have hnew' : ∀ name ∈ rest, name ∉ first :: seen := by
      intro name hname
      rw [List.mem_cons, not_or]
      exact ⟨fun heq => hfirst (heq ▸ hname), hrestNew name hname⟩
    rw [List.cons_append, firstRepeat?, if_neg hfirstNew, ih hrest hnew', List.reverse_cons,
      List.append_assoc]
    rfl

theorem firstRepeat?_of_nodup {names : List String} (h : names.Nodup) :
    firstRepeat? [] names = none := by
  have happend := firstRepeat?_append h (fun _ _ => List.not_mem_nil) []
  rw [List.append_nil] at happend
  exact happend

theorem firstRepeat?_of_firstRepeat (h : FirstRepeat Param.name params p) :
    firstRepeat? [] (params.map Param.name) = some p.name := by
  obtain ⟨before, after, rfl, hnodup, hmem⟩ := h
  have hseen : p.name ∈ (before.map Param.name).reverse ++ [] := by
    rwa [List.append_nil, List.mem_reverse]
  rw [List.map_append, List.map_cons, firstRepeat?_append hnodup fun _ _ => List.not_mem_nil,
    firstRepeat?, if_pos hseen]

theorem validate_of_not_isIdentifier (h : ¬ IsIdentifier name) (params : List Param) :
    (named name params).validate = .error (.annotationRejected name notAnIdentifier) := by
  rw [validate, if_neg (isIdentifier_iff.not.2 h)]

theorem validate_of_nodup (hname : IsIdentifier name) (h : (params.map Param.name).Nodup) :
    (named name params).validate = .ok () := by
  rw [validate, if_pos (isIdentifier_iff.2 hname), firstRepeat?_of_nodup h]

theorem validate_of_firstRepeat (hname : IsIdentifier name) (h : FirstRepeat Param.name params p) :
    (named name params).validate = .error (.duplicateParameter name p.name) := by
  rw [validate, if_pos (isIdentifier_iff.2 hname), firstRepeat?_of_firstRepeat h]

/-- One of three things is the case, and each has its verdict. -/
theorem validate_named_cases (name : String) (params : List Param) :
    (¬ IsIdentifier name ∧
      (named name params).validate = .error (.annotationRejected name notAnIdentifier)) ∨
    (IsIdentifier name ∧ (params.map Param.name).Nodup ∧
      (named name params).validate = .ok ()) ∨
    IsIdentifier name ∧ ∃ p, FirstRepeat Param.name params p ∧
      (named name params).validate = .error (.duplicateParameter name p.name) := by
  by_cases hname : IsIdentifier name
  · rcases nodup_or_exists_firstRepeat Param.name params with hnodup | ⟨p, hp⟩
    · exact .inr (.inl ⟨hname, hnodup, validate_of_nodup hname hnodup⟩)
    · exact .inr (.inr ⟨hname, p, hp, validate_of_firstRepeat hname hp⟩)
  · exact .inl ⟨hname, validate_of_not_isIdentifier hname params⟩

/-- An annotation passes if its name is an identifier and its parameters have different names. Else
it is refused for its name, whatever its parameters are, or for the first parameter with the name of
one before it. Parameters of the same names in the same order get the same verdict. -/
theorem validate_named_iff (name : String) (params : List Param) :
    let verdict := (named name params).validate
    (verdict = .ok () ↔ IsIdentifier name ∧ (params.map Param.name).Nodup) ∧
    (∀ d, verdict = .error d ↔
      ¬ IsIdentifier name ∧ d = .annotationRejected name notAnIdentifier ∨
      IsIdentifier name ∧
        ∃ p, FirstRepeat Param.name params p ∧ d = .duplicateParameter name p.name) ∧
    ∀ params' : List Param, params'.map Param.name = params.map Param.name →
      (named name params').validate = verdict := by
  intro verdict
  refine ⟨⟨fun h => ?_, fun ⟨hname, hnodup⟩ => validate_of_nodup hname hnodup⟩,
    fun d => ⟨fun h => ?_, ?_⟩, fun params' hnames => ?_⟩
  · rcases validate_named_cases name params with ⟨-, heq⟩ | ⟨hname, hnodup, -⟩ | ⟨-, p, -, heq⟩
    · cases h.symm.trans heq
    · exact ⟨hname, hnodup⟩
    · cases h.symm.trans heq
  · rcases validate_named_cases name params with ⟨hname, heq⟩ | ⟨-, -, heq⟩ | ⟨hname, p, hp, heq⟩
    · exact .inl ⟨hname, Except.error.inj (h.symm.trans heq)⟩
    · cases h.symm.trans heq
    · exact .inr ⟨hname, p, hp, Except.error.inj (h.symm.trans heq)⟩
  · rintro (⟨hname, rfl⟩ | ⟨hname, p, hp, rfl⟩)
    · exact validate_of_not_isIdentifier hname params
    · exact validate_of_firstRepeat hname hp
  · change validate _ = validate _
    rw [validate, validate, hnames]

/-- The name that repeats first is not the first of those that repeat. -/
example : (named "flow" [⟨"next", ["a"]⟩, ⟨"key", []⟩, ⟨"key", ["b"]⟩, ⟨"next", []⟩]).validate =
    .error (.duplicateParameter "flow" "key") := by decide

end Annotation
end Idl
