import Idl.Proofs.Handover

/-!
# Texts cut at separators

A text that is made of parts has the parts of which it is made and no others, if no part contains
what separates them. What has been pushed on a sink can be told from what the sink then holds.
-/

namespace Idl

/-- The first occurrence of a character cuts a text in one way. -/
theorem eq_and_eq_of_append_cons_eq {c : Char} {x y x' y' : List Char} (hx : c ∉ x) (hx' : c ∉ x')
    (h : x ++ c :: y = x' ++ c :: y') : x = x' ∧ y = y' := by
  induction x generalizing x' with
  | nil =>
    cases x' with
    | nil => exact ⟨rfl, (List.cons.inj h).2⟩
    | cons d x' =>
      obtain rfl := (List.cons.inj h).1
      exact absurd List.mem_cons_self hx'
  | cons d x ih =>
    cases x' with
    | nil =>
      obtain rfl := (List.cons.inj h).1
      exact absurd List.mem_cons_self hx
    | cons d' x' =>
      obtain ⟨rfl, hrest⟩ := List.cons.inj h
      obtain ⟨rfl, hy⟩ :=
        ih (List.not_mem_of_not_mem_cons hx) (List.not_mem_of_not_mem_cons hx') hrest
      exact ⟨rfl, hy⟩

theorem lead_append_cons_inj {width level : Nat} {start : Bool} {c d : Char} {x y : List Char}
    (h : lead width start (c, level) ++ c :: x = lead width start (d, level) ++ d :: y) :
    c = d ∧ x = y := by
  have hspaces : ∀ (n : Nat) (e : Char) (x y : List Char), e ≠ '\n' →
      '\n' :: x ≠ List.replicate n ' ' ++ e :: y := by
    intro n e x y he heq
    cases n with
    | zero => exact he (List.cons.inj heq).1.symm
    | succ n => cases (List.cons.inj heq).1
  unfold lead at h
  by_cases hc : start = true ∧ c ≠ '\n' <;> by_cases hd : start = true ∧ d ≠ '\n'
  · rw [if_pos hc, if_pos hd] at h
    exact List.cons.inj (List.append_cancel_left h)
  · have hd' : d = '\n' := not_not.1 fun hne => hd ⟨hc.1, hne⟩
    rw [if_pos hc, if_neg hd, hd'] at h
    exact absurd h.symm (hspaces _ _ _ _ hc.2)
  · have hc' : c = '\n' := not_not.1 fun hne => hc ⟨hd.1, hne⟩
    rw [if_neg hc, if_pos hd, hc'] at h
    exact absurd h (hspaces _ _ _ _ hd.2)
  · rw [if_neg hc, if_neg hd] at h
    exact List.cons.inj h

theorem replay_injective {width level : Nat} {start : Bool} {x y : List Char}
    (h : replay width start (x.map fun c => (c, level)) =
      replay width start (y.map fun c => (c, level))) : x = y := by
  induction x generalizing start y with
  | nil => exact (List.map_eq_nil_iff.1 (replay_eq_nil_iff.1 h.symm)).symm
  | cons c x ih =>
    cases y with
    | nil => exact absurd (replay_eq_nil_iff.1 h) (List.cons_ne_nil _ _)
    | cons d y =>
      obtain ⟨rfl, hrest⟩ := lead_append_cons_inj h
      rw [ih hrest]

/-- Different texts leave different outputs, whatever sink they are pushed on. -/
theorem Sink.push_injective {k : Sink} {a b : String} (h : (k.push a).output = (k.push b).output) :
    a = b := by
  rw [push_eq_write, push_eq_write] at h
  have hreplay := String.ofList_inj.1 ((String.append_right_inj _).1 h)
  exact String.toList_inj.1 (replay_injective hreplay)

theorem not_mem_of_isIdentifier {name : String} {c : Char} (h : isIdentifier name = true)
    (hc : isIdentifierRest c = false) : c ∉ name.toList := by
  have hstart : ∀ c, isIdentifierStart c = true → isIdentifierRest c = true := by
    intro c hc
    simp only [isIdentifierStart, isIdentifierRest, Char.isAlphanum, Bool.or_eq_true] at hc ⊢
    exact hc.imp .inl id
  unfold isIdentifier at h
  cases hname : name.toList with
  | nil => exact List.not_mem_nil
  | cons d rest =>
    rw [hname, Bool.and_eq_true, List.all_eq_true] at h
    intro hmem
    rcases List.mem_cons.1 hmem with rfl | hmem
    · rw [hstart c h.1] at hc
      cases hc
    · rw [h.2 c hmem] at hc
      cases hc

/-- The last occurrence of a character cuts a text in one way. -/
theorem eq_and_eq_of_last_cut_eq {c : Char} {x y x' y' : List Char} (hy : c ∉ y) (hy' : c ∉ y')
    (h : x ++ c :: y = x' ++ c :: y') : x = x' ∧ y = y' := by
  have hcut := Text.splitAtLast?_append hy x
  rw [h, Text.splitAtLast?_append hy'] at hcut
  obtain ⟨hfirst, hrest⟩ := Prod.mk.inj (Option.some.inj hcut)
  exact ⟨hfirst.symm, hrest.symm⟩

theorem eq_and_eq_of_append_space_eq {a b a' b' : String} (hb : ' ' ∉ b.toList)
    (hb' : ' ' ∉ b'.toList) (h : a ++ " " ++ b = a' ++ " " ++ b') : a = a' ∧ b = b' := by
  have hlist : a.toList ++ ' ' :: b.toList = a'.toList ++ ' ' :: b'.toList := by
    simpa using congrArg String.toList h
  obtain ⟨hfirst, hrest⟩ := eq_and_eq_of_last_cut_eq hb hb' hlist
  exact ⟨String.toList_inj.1 hfirst, String.toList_inj.1 hrest⟩

theorem eq_and_eq_of_append_comma_eq {a b a' b' : String} (ha : ',' ∉ a.toList)
    (ha' : ',' ∉ a'.toList) (h : a ++ ", " ++ b = a' ++ ", " ++ b') : a = a' ∧ b = b' := by
  have hlist : a.toList ++ ',' :: ' ' :: b.toList = a'.toList ++ ',' :: ' ' :: b'.toList := by
    simpa using congrArg String.toList h
  obtain ⟨hfirst, hrest⟩ := eq_and_eq_of_append_cons_eq ha ha' hlist
  exact ⟨String.toList_inj.1 hfirst, String.toList_inj.1 (List.cons.inj hrest).2⟩

/-- Parts without commas are joined by commas to a text that falls into these parts only. -/
theorem eq_of_intercalate_eq {parts parts' : List String}
    (h : ∀ part ∈ parts, part ≠ "" ∧ ',' ∉ part.toList)
    (h' : ∀ part ∈ parts', part ≠ "" ∧ ',' ∉ part.toList)
    (heq : ", ".intercalate parts = ", ".intercalate parts') : parts = parts' := by
  -- The text of several parts has a comma, so it is not that of one.
  have hlonger : ∀ (part first next : String) (rest : List String), ',' ∉ part.toList →
      part ≠ ", ".intercalate (first :: next :: rest) := by
    intro part first next rest hpart heq
    refine hpart ?_
    rw [heq, String.intercalate_cons_cons, String.toList_append, String.toList_append]
    exact List.mem_append_left _ (List.mem_append_right _ List.mem_cons_self)
  induction parts generalizing parts' with
  | nil =>
    rw [String.intercalate_nil] at heq
    exact ((intercalate_eq_empty_iff fun part hpart => (h' part hpart).1).1 heq.symm).symm
  | cons part rest ih =>
    obtain ⟨⟨hne, hpart⟩, hrest⟩ := List.forall_mem_cons.1 h
    cases parts' with
    | nil =>
      rw [String.intercalate_nil] at heq
      exact (intercalate_eq_empty_iff fun part hpart => (h part hpart).1).1 heq
    | cons part' rest' =>
      obtain ⟨⟨-, hpart'⟩, hrest'⟩ := List.forall_mem_cons.1 h'
      cases rest with
      | nil =>
        rw [String.intercalate_singleton] at heq
        cases rest' with
        | nil => rw [heq, String.intercalate_singleton]
        | cons next' rest' => exact absurd heq (hlonger _ _ _ _ hpart)
      | cons next rest =>
        cases rest' with
        | nil =>
          rw [String.intercalate_singleton] at heq
          exact absurd heq.symm (hlonger _ _ _ _ hpart')
        | cons next' rest' =>
          rw [String.intercalate_cons_cons, String.intercalate_cons_cons] at heq
          obtain ⟨rfl, hmore⟩ := eq_and_eq_of_append_comma_eq hpart hpart' heq
          rw [ih hrest hrest' hmore]

end Idl
