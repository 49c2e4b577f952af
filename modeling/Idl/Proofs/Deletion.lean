import Mathlib.Data.List.Infix

/-!
# Words deleted from a text

All occurrences of a word are deleted from a text, from the left. A character that the word does not
have divides the text: no occurrence goes across it, so what stands on either side loses its own.
-/

namespace Idl

/-- The text without the word. The first `skip` characters belong to an occurrence of it. -/
def dropWord (word : List Char) : ℕ → List Char → List Char
  | _, [] => []
  | skip + 1, _ :: rest => dropWord word skip rest
  | 0, c :: rest =>
    if word.isPrefixOf (c :: rest) then dropWord word (word.length - 1) rest
    else c :: dropWord word 0 rest

/-- The text without the occurrences of a word that is not empty. -/
def without (word text : String) : String := String.ofList (dropWord word.toList 0 text.toList)

section Lists

variable {word x y : List Char} {c : Char}

theorem prefix_append_cons_iff (hc : c ∉ word) : word <+: x ++ c :: y ↔ word <+: x := by
  refine ⟨fun h => ?_, fun h => h.trans (List.prefix_append x _)⟩
  obtain ⟨t, ht⟩ := h
  rcases List.append_eq_append_iff.1 ht with ⟨rest, rfl, -⟩ | ⟨rest, rfl, hrest⟩
  · exact List.prefix_append word rest
  · cases rest with
    | nil => exact (List.append_nil x).symm ▸ List.prefix_rfl
    | cons d rest =>
      obtain rfl := (List.cons.inj hrest).1
      exact absurd (List.mem_append_right x List.mem_cons_self) hc

theorem suffix_append_cons_iff (hc : c ∉ word) : word <:+ x ++ c :: y ↔ word <:+ y := by
  have hreverse : c ∉ word.reverse := fun h => hc (List.mem_reverse.1 h)
  rw [← List.reverse_prefix, ← List.reverse_prefix, List.reverse_append, List.reverse_cons,
    List.append_assoc]
  exact prefix_append_cons_iff hreverse

theorem dropWord_append_cons (hne : word ≠ []) (hc : c ∉ word) {skip : ℕ}
    (hskip : skip ≤ x.length) :
    dropWord word skip (x ++ c :: y) = dropWord word skip x ++ c :: dropWord word 0 y := by
  induction x generalizing skip with
  | nil =>
    obtain rfl := Nat.le_zero.1 hskip
    have hstarts : ¬ word.isPrefixOf (c :: y) = true := by
      rw [List.isPrefixOf_iff_prefix]
      exact fun h => hne (List.prefix_nil.1 ((prefix_append_cons_iff (x := []) hc).1 h))
    exact if_neg hstarts
  | cons d x ih =>
    cases skip with
    | succ skip => exact ih (Nat.le_of_succ_le_succ hskip)
    | zero =>
      have hstarts : word.isPrefixOf (d :: x ++ c :: y) = true ↔
          word.isPrefixOf (d :: x) = true := by
        rw [List.isPrefixOf_iff_prefix, List.isPrefixOf_iff_prefix, prefix_append_cons_iff hc]
      rw [List.cons_append] at hstarts ⊢
      rw [dropWord, dropWord]
      by_cases h : word.isPrefixOf (d :: x) = true
      · have hlength := (List.isPrefixOf_iff_prefix.1 h).length_le
        rw [List.length_cons] at hlength
        rw [if_pos (hstarts.2 h), if_pos h, ih (by omega)]
      · rw [if_neg fun h' => h (hstarts.1 h'), if_neg h, ih (Nat.zero_le _), List.cons_append]

theorem dropWord_skip (word x y : List Char) :
    dropWord word x.length (x ++ y) = dropWord word 0 y := by
  induction x with
  | nil => rfl
  | cons c x ih => exact ih

theorem dropWord_append_self (hne : word ≠ []) (y : List Char) :
    dropWord word 0 (word ++ y) = dropWord word 0 y := by
  obtain ⟨c, rest, rfl⟩ := List.exists_cons_of_ne_nil hne
  have hstarts : (c :: rest).isPrefixOf (c :: (rest ++ y)) = true :=
    List.isPrefixOf_iff_prefix.2 (List.prefix_append (c :: rest) y)
  rw [List.cons_append, dropWord, if_pos hstarts]
  exact dropWord_skip _ rest y

/-- Whatever shares no character with the word divides the text. -/
theorem dropWord_divided {divider : List Char} (hne : word ≠ []) (hdivider : divider ≠ [])
    (h : ∀ c ∈ divider, c ∉ word) :
    dropWord word 0 (x ++ divider ++ y) = dropWord word 0 x ++ divider ++ dropWord word 0 y := by
  have hrest : ∀ cs : List Char, (∀ c ∈ cs, c ∉ word) →
      dropWord word 0 (cs ++ y) = cs ++ dropWord word 0 y := by
    intro cs hcs
    induction cs with
    | nil => rfl
    | cons c cs ih =>
      obtain ⟨hc, hcs⟩ := List.forall_mem_cons.1 hcs
      have hcut := dropWord_append_cons (x := []) (y := cs ++ y) hne hc le_rfl
      rw [List.cons_append, List.cons_append, ← ih hcs]
      exact hcut
  obtain ⟨c, cs, rfl⟩ := List.exists_cons_of_ne_nil hdivider
  obtain ⟨hc, hcs⟩ := List.forall_mem_cons.1 h
  rw [List.append_assoc, List.append_assoc, List.cons_append, List.cons_append,
    dropWord_append_cons hne hc (Nat.zero_le _), hrest cs hcs]

theorem dropWord_of_not_infix (h : ¬ word <:+: x) : dropWord word 0 x = x := by
  induction x with
  | nil => rfl
  | cons d x ih =>
    have hstarts : ¬ word.isPrefixOf (d :: x) = true := by
      rw [List.isPrefixOf_iff_prefix]
      exact fun hword => h hword.isInfix
    rw [dropWord, if_neg hstarts, ih fun hword => h (hword.trans (List.suffix_cons d x).isInfix)]

end Lists

section Texts

variable {word text : String} {c : Char}

/-- The text is not empty and has no character of the word. -/
def Separates (word divider : String) : Prop :=
  divider ≠ "" ∧ ∀ c ∈ divider.toList, c ∉ word.toList

instance (word divider : String) : Decidable (Separates word divider) :=
  have : Decidable (∀ c ∈ divider.toList, c ∉ word.toList) := List.decidableBAll _ _
  inferInstanceAs (Decidable (_ ∧ _))

theorem toList_ne_nil (h : text ≠ "") : text.toList ≠ [] :=
  fun hnil => h (String.toList_eq_nil_iff.1 hnil)

@[simp] theorem without_empty (word : String) : without word "" = "" := rfl

theorem without_of_not_infix (h : ¬ word.toList <:+: text.toList) : without word text = text := by
  rw [without, dropWord_of_not_infix h, String.ofList_toList]

/-- A text without some character of the word has no occurrence to lose. -/
theorem without_of_not_mem (hc : c ∈ word.toList) (h : c ∉ text.toList) :
    without word text = text :=
  without_of_not_infix fun hword => h (hword.subset hc)

theorem map_without_of_not_mem {parts : List String} (hc : c ∈ word.toList)
    (h : ∀ part ∈ parts, c ∉ part.toList) : parts.map (without word) = parts := by
  have hsame : ∀ part ∈ parts, without word part = id part :=
    fun part hpart => without_of_not_mem hc (h part hpart)
  rw [List.map_congr_left hsame, List.map_id]

theorem without_append_self (hne : word ≠ "") (text : String) :
    without word (word ++ text) = without word text := by
  rw [without, String.toList_append, dropWord_append_self (toList_ne_nil hne), without]

theorem without_divided {divider : String} (hne : word ≠ "") (h : Separates word divider)
    (left right : String) : without word (left ++ divider ++ right) =
      without word left ++ divider ++ without word right := by
  rw [without, String.toList_append, String.toList_append,
    dropWord_divided (toList_ne_nil hne) (toList_ne_nil h.1) h.2, String.ofList_append,
    String.ofList_append, String.ofList_toList]
  rfl

theorem without_intercalate {separator : String} (hne : word ≠ "") (h : Separates word separator)
    (parts : List String) : without word (separator.intercalate parts) =
      separator.intercalate (parts.map (without word)) := by
  induction parts with
  | nil => rfl
  | cons part rest ih =>
    cases rest with
    | nil => simp
    | cons next rest =>
      rw [String.intercalate_cons_cons, without_divided hne h, ih]
      exact String.intercalate_cons_cons.symm

end Texts
end Idl
