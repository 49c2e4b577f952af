import Idl.Location
import Idl.Proofs.Separators

/-!
# Written places tell places apart

A place is written as its file, its first position and its last position. A file may have any name,
also one that looks like a position, but no position has a colon, so the last colon is where the
file ends. Two locations are written alike only if one of them is in no file and the other is the
same place in a file named `<input>`.
-/

namespace Idl

namespace Position

variable {p q : Position} {c : Char}

/-- A position is made up of digits and a point. -/
theorem isDigit_or_eq_of_mem_text (h : c ∈ p.text.toList) : c.isDigit = true ∨ c = '.' := by
  rw [text, String.toList_append, String.toList_append, List.mem_append, List.mem_append] at h
  rcases h with (hline | hpoint) | hcolumn
  · exact .inl (Text.isDigit_of_mem_decimal hline)
  · exact .inr (List.mem_singleton.1 hpoint)
  · exact .inl (Text.isDigit_of_mem_decimal hcolumn)

theorem not_mem_text (hdigit : c.isDigit = false) (hpoint : c ≠ '.') : c ∉ p.text.toList := by
  intro h
  rcases isDigit_or_eq_of_mem_text h with hc | hc
  · rw [hdigit] at hc
    cases hc
  · exact hpoint hc

/-- The point cannot stand in the line, so it divides line and column. -/
theorem text_injective (h : p.text = q.text) : p = q := by
  have hline : ∀ n, '.' ∉ (Text.decimal n).toList := by
    intro n hmem
    cases Text.isDigit_of_mem_decimal hmem
  obtain ⟨line, column⟩ := p
  obtain ⟨line', column'⟩ := q
  have hlist : (Text.decimal line).toList ++ '.' :: (Text.decimal column).toList =
      (Text.decimal line').toList ++ '.' :: (Text.decimal column').toList := by
    simpa [text] using congrArg String.toList h
  obtain ⟨hlines, hcolumns⟩ := eq_and_eq_of_append_cons_eq (hline line) (hline line') hlist
  rw [Text.decimal_injective (String.toList_inj.1 hlines),
    Text.decimal_injective (String.toList_inj.1 hcolumns)]

end Position

namespace Location

variable {l l' : Location} {file file' : String} {p q p' q' : Position}

/-- What a location that is not empty is written as. -/
def placeText (file : String) (first last : Position) : String :=
  file ++ ":" ++ first.text ++ "-" ++ last.text

/-- The same place in a file named `<input>`. -/
def inInput (l : Location) : Location := { l with file := some "<input>" }

/-- In no file, but somewhere. -/
def IsUnfiled (l : Location) : Prop := l.file = none ∧ l.isEmpty = false

theorem toList_placeText : (placeText file p q).toList =
    file.toList ++ ':' :: (p.text.toList ++ '-' :: q.text.toList) := by
  simp [placeText]

theorem colon_mem_placeText : ':' ∈ (placeText file p q).toList := by
  rw [toList_placeText]
  exact List.mem_append_right _ List.mem_cons_self

/-- A file ends at the last colon, the first position at the dash after it. -/
theorem placeText_injective (h : placeText file p q = placeText file' p' q') :
    file = file' ∧ p = p' ∧ q = q' := by
  have hspan : ∀ p q : Position, ':' ∉ p.text.toList ++ '-' :: q.text.toList := by
    intro p q
    have hp : ':' ∉ p.text.toList := Position.not_mem_text rfl (by decide)
    have hq : ':' ∉ q.text.toList := Position.not_mem_text rfl (by decide)
    simp [hp, hq]
  have hdash : ∀ p : Position, '-' ∉ p.text.toList :=
    fun p => Position.not_mem_text rfl (by decide)
  have hlist := congrArg String.toList h
  rw [toList_placeText, toList_placeText] at hlist
  obtain ⟨hfile, hpositions⟩ := eq_and_eq_of_last_cut_eq (hspan p q) (hspan p' q') hlist
  obtain ⟨hfirst, hlast⟩ := eq_and_eq_of_append_cons_eq (hdash p) (hdash p') hpositions
  exact ⟨String.toList_inj.1 hfile, Position.text_injective (String.toList_inj.1 hfirst),
    Position.text_injective (String.toList_inj.1 hlast)⟩

theorem isEmpty_iff : l.isEmpty = true ↔ l = empty := decide_eq_true_iff

theorem isEmpty_some : isEmpty ⟨some file, p, q⟩ = false := decide_eq_false nofun

theorem text_of_isEmpty (h : l.isEmpty = true) : l.text = "<unknown>" := if_pos h

theorem text_of_not_isEmpty (h : l.isEmpty = false) :
    l.text = placeText (l.file.getD "<input>") l.first l.last := by
  rw [text, h]
  rfl

theorem placeText_ne_unknown : placeText file p q ≠ "<unknown>" := by
  intro h
  have hcolon : ':' ∈ (placeText file p q).toList := colon_mem_placeText
  rw [h] at hcolon
  exact absurd hcolon (by decide)

theorem text_eq_unknown_iff : l.text = "<unknown>" ↔ l.isEmpty = true := by
  refine ⟨fun h => ?_, text_of_isEmpty⟩
  cases hl : l.isEmpty with
  | true => rfl
  | false =>
    rw [text_of_not_isEmpty hl] at h
    exact absurd h placeText_ne_unknown

theorem IsUnfiled.text_eq (h : l.IsUnfiled) : l.text = l.inInput.text := by
  rw [text_of_not_isEmpty h.2, inInput, text_of_not_isEmpty isEmpty_some, h.1]
  rfl

/-- Locations at one place are the same, or one of them is in no file. -/
theorem eq_or_of_getD_eq (hl : l.isEmpty = false) (hl' : l'.isEmpty = false)
    (hfile : l.file.getD "<input>" = l'.file.getD "<input>") (hfirst : l.first = l'.first)
    (hlast : l.last = l'.last) :
    l = l' ∨ l.IsUnfiled ∧ l' = l.inInput ∨ l'.IsUnfiled ∧ l = l'.inInput := by
  obtain ⟨file, p, q⟩ := l
  obtain ⟨file', p', q'⟩ := l'
  obtain rfl : p = p' := hfirst
  obtain rfl : q = q' := hlast
  cases file with
  | none =>
    cases file' with
    | none => exact .inl rfl
    | some file' =>
      obtain rfl : "<input>" = file' := hfile
      exact .inr (.inl ⟨⟨rfl, hl⟩, rfl⟩)
  | some file =>
    cases file' with
    | none =>
      obtain rfl : file = "<input>" := hfile
      exact .inr (.inr ⟨⟨rfl, hl'⟩, rfl⟩)
    | some file' =>
      obtain rfl : file = file' := hfile
      exact .inl rfl

/-- Locations are written alike if they are equal, or one is in no file and the other in `<input>`
at the same place, and not otherwise. Only the empty location is written `<unknown>`; one in a file
never is, whatever the name of the file. -/
theorem text_pins_location (l l' : Location) :
    (l.text = l'.text ↔
      l = l' ∨ l.IsUnfiled ∧ l' = l.inInput ∨ l'.IsUnfiled ∧ l = l'.inInput) ∧
    (l.text = "<unknown>" ↔ l.isEmpty = true) ∧
    ∀ file first last, text ⟨some file, first, last⟩ ≠ "<unknown>" := by
  refine ⟨⟨fun h => ?_, ?_⟩, text_eq_unknown_iff, fun file first last h => ?_⟩
  · by_cases hl : l.isEmpty = true
    · have hl' : l'.isEmpty = true := by rw [← text_eq_unknown_iff, ← h, text_of_isEmpty hl]
      rw [isEmpty_iff] at hl hl'
      exact .inl (hl.trans hl'.symm)
    · have hl' : ¬ l'.isEmpty = true := by rwa [← text_eq_unknown_iff, ← h, text_eq_unknown_iff]
      rw [Bool.not_eq_true] at hl hl'
      rw [text_of_not_isEmpty hl, text_of_not_isEmpty hl'] at h
      obtain ⟨hfile, hfirst, hlast⟩ := placeText_injective h
      exact eq_or_of_getD_eq hl hl' hfile hfirst hlast
  · rintro (rfl | ⟨hl, rfl⟩ | ⟨hl', rfl⟩)
    · rfl
    · exact hl.text_eq
    · exact hl'.text_eq.symm
  · rw [text_eq_unknown_iff, isEmpty_some] at h
    cases h

end Location
end Idl
