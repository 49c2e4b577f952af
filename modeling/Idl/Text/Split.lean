/-!
# Cutting texts

A text is cut into lines, at the last occurrence of a character, or at the first occurrence of a
separator. Each cut loses the separator and nothing else. Putting pieces together adds the separator
and nothing else.
-/

namespace Idl.Text

/-- The first line and the lines after it. -/
def lines : List Char → List Char × List (List Char)
  | [] => ([], [])
  | c :: rest =>
    if c = '\n' then ([], (lines rest).1 :: (lines rest).2)
    else (c :: (lines rest).1, (lines rest).2)

/-- The pieces between the occurrences of a character. -/
def pieces (separator : Char) : List Char → List Char × List (List Char)
  | [] => ([], [])
  | c :: rest =>
    let (piece, more) := pieces separator rest
    if c = separator then ([], piece :: more) else (c :: piece, more)

def splitAtLast? (separator : Char) : List Char → Option (List Char × List Char)
  | [] => none
  | c :: rest =>
    match splitAtLast? separator rest with
    | some (before, after) => some (c :: before, after)
    | none => if c = separator then some ([], rest) else none

theorem splitAtLast?_eq_none_iff {separator : Char} {s : List Char} :
    splitAtLast? separator s = none ↔ separator ∉ s := by
  induction s with
  | nil => simp [splitAtLast?]
  | cons c rest ih =>
    rw [splitAtLast?, List.mem_cons, not_or]
    cases h : splitAtLast? separator rest with
    | some p =>
      have hmem : separator ∈ rest := by
        apply Decidable.byContradiction
        intro hrest
        simp [ih.2 hrest] at h
      simp [hmem]
    | none =>
      have hrest := ih.1 h
      by_cases hc : c = separator
      · simp [hc]
      · simp [hc, Ne.symm hc, hrest]

theorem splitAtLast?_append {separator : Char} {after : List Char} (h : separator ∉ after)
    (before : List Char) :
    splitAtLast? separator (before ++ separator :: after) = some (before, after) := by
  induction before with
  | nil => simp [splitAtLast?, splitAtLast?_eq_none_iff.2 h]
  | cons c before ih => simp [splitAtLast?, ih]

theorem eq_append_of_splitAtLast? {separator : Char} {s before after : List Char}
    (h : splitAtLast? separator s = some (before, after)) :
    s = before ++ separator :: after ∧ separator ∉ after := by
  induction s generalizing before with
  | nil => simp [splitAtLast?] at h
  | cons c rest ih =>
    rw [splitAtLast?] at h
    cases hrest : splitAtLast? separator rest with
    | some p =>
      obtain ⟨b, a⟩ := p
      rw [hrest] at h
      obtain ⟨rfl, rfl⟩ := Prod.mk.inj (Option.some.inj h)
      obtain ⟨heq, hnot⟩ := ih hrest
      exact ⟨by rw [heq, List.cons_append], hnot⟩
    | none =>
      rw [hrest] at h
      by_cases hc : c = separator
      · simp only [hc, if_true] at h
        obtain ⟨rfl, rfl⟩ := Prod.mk.inj (Option.some.inj h)
        exact ⟨by rw [hc, List.nil_append], splitAtLast?_eq_none_iff.1 hrest⟩
      · simp [hc] at h

def splitAtFirst? (separator : List Char) : List Char → Option (List Char × List Char)
  | [] => none
  | c :: rest =>
    if separator.isPrefixOf (c :: rest) then some ([], (c :: rest).drop separator.length)
    else (splitAtFirst? separator rest).map fun (before, after) => (c :: before, after)

/-- The first separator is the one after a text that does not hold its first character. -/
theorem splitAtFirst?_append {c : Char} {rest before : List Char} (h : c ∉ before)
    (after : List Char) :
    splitAtFirst? (c :: rest) (before ++ (c :: rest) ++ after) = some (before, after) := by
  induction before with
  | nil => simp [splitAtFirst?]
  | cons b before ih =>
    rw [List.mem_cons, not_or] at h
    rw [List.cons_append, List.cons_append, splitAtFirst?, ih h.2]
    simp [h.1]

theorem eq_append_of_splitAtFirst? {separator s before after : List Char}
    (h : splitAtFirst? separator s = some (before, after)) : s = before ++ separator ++ after := by
  induction s generalizing before with
  | nil => simp [splitAtFirst?] at h
  | cons c rest ih =>
    rw [splitAtFirst?] at h
    split at h
    · next hseparator =>
      obtain ⟨tail, htail⟩ := List.isPrefixOf_iff_prefix.1 hseparator
      rw [← htail, List.drop_left] at h
      cases h
      exact htail.symm
    · obtain ⟨p, hp, heq⟩ := Option.map_eq_some_iff.1 h
      cases heq
      rw [ih hp, List.cons_append, List.cons_append]

/-- A character that is not in the separator comes from one of the pieces. -/
theorem mem_intercalate_iff {c : Char} {separator : List Char} (h : c ∉ separator)
    (pieces : List (List Char)) :
    c ∈ separator.intercalate pieces ↔ ∃ piece ∈ pieces, c ∈ piece := by
  induction pieces with
  | nil => simp
  | cons piece rest ih =>
    cases rest with
    | nil => simp
    | cons next rest =>
      rw [List.intercalate_cons_cons, List.mem_append, List.mem_append, ih]
      simp [h]

end Idl.Text
