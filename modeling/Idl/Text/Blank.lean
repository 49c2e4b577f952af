import Idl.Text.Ranges

/-!
# Blank characters

`isBlank` holds of exactly the characters with the Unicode property `White_Space`. `trim` drops
them from both ends of a text and leaves what stands between alone.
-/

namespace Idl.Text

def blanks : Ranges :=
  [(0x09, 0x0D), (0x20, 0x20), (0x85, 0x85), (0xA0, 0xA0), (0x1680, 0x1680),
    (0x2000, 0x200A), (0x2028, 0x2029), (0x202F, 0x202F), (0x205F, 0x205F), (0x3000, 0x3000)]

def isBlank (c : Char) : Bool := blanks.contains c

example : blanks.ascendsFrom 0 ∧ blanks.count = 25 := by decide

def trimEnd (s : List Char) : List Char :=
  (s.reverse.dropWhile isBlank).reverse

def trim (s : List Char) : List Char :=
  trimEnd (s.dropWhile isBlank)

theorem length_trimEnd_le (s : List Char) : (trimEnd s).length ≤ s.length := by
  simpa [trimEnd] using (List.dropWhile_suffix isBlank (l := s.reverse)).length_le

theorem length_trim_le (s : List Char) : (trim s).length ≤ s.length :=
  Nat.le_trans (length_trimEnd_le _) (List.dropWhile_suffix isBlank).length_le

theorem isBlank_of_mem_takeWhile {s : List Char} {c : Char} (h : c ∈ s.takeWhile isBlank) :
    isBlank c := by
  induction s with
  | nil => simp at h
  | cons d s ih =>
    rw [List.takeWhile_cons] at h
    split at h
    · next hd =>
      rcases List.mem_cons.1 h with rfl | h
      · exact hd
      · exact ih h
    · simp at h

theorem exists_eq_append_trimEnd (s : List Char) :
    ∃ trail, s = trimEnd s ++ trail ∧ ∀ c ∈ trail, isBlank c := by
  refine ⟨(s.reverse.takeWhile isBlank).reverse, ?_, ?_⟩
  · rw [trimEnd, ← List.reverse_append, List.takeWhile_append_dropWhile, List.reverse_reverse]
  · intro c hc
    exact isBlank_of_mem_takeWhile (List.mem_reverse.1 hc)

/-- Only blank characters are dropped. -/
theorem exists_eq_append_trim (s : List Char) :
    ∃ lead trail, s = lead ++ trim s ++ trail ∧ (∀ c ∈ lead, isBlank c) ∧
      ∀ c ∈ trail, isBlank c := by
  obtain ⟨trail, heq, htrail⟩ := exists_eq_append_trimEnd (s.dropWhile isBlank)
  refine ⟨s.takeWhile isBlank, trail, ?_, fun c => isBlank_of_mem_takeWhile, htrail⟩
  rw [List.append_assoc, trim, ← heq, List.takeWhile_append_dropWhile]

def isBlankText (s : List Char) : Bool := s.all isBlank

theorem trim_eq_nil_iff {s : List Char} : trim s = [] ↔ isBlankText s := by
  constructor
  · intro h
    obtain ⟨lead, trail, heq, hlead, htrail⟩ := exists_eq_append_trim s
    rw [h, List.append_nil] at heq
    rw [isBlankText, heq, List.all_append, List.all_eq_true.2 hlead, List.all_eq_true.2 htrail]
    rfl
  · intro h
    have hdrop : (s ++ []).dropWhile isBlank = [] :=
      List.dropWhile_append_of_pos (List.all_eq_true.1 h)
    rw [List.append_nil] at hdrop
    rw [trim, hdrop]
    rfl

end Idl.Text
