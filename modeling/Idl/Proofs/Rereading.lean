import Idl.Proofs.Comments

/-!
# Annotations read back from their comment

What is written for an annotation shows where it ends: a name ends before the first character that
no identifier has, a value at its second quotation mark, and a list at the bracket that closes it.
An item that shows its end can be cut off, so a list of such items can be taken apart in one way,
and so can a list of lists. This goes from the values to the comment of a whole method.
-/

namespace Idl

section Detachable

variable {α : Type} {content : α → String} {ok : α → Prop} {follows : Char → Prop}
  {separator : String} {first close : Char} {more : List Char}

/-- From a text that begins with an item, the item can be cut off in one way if one of these
characters comes next. -/
def Detachable (content : α → String) (ok : α → Prop) (follows : Char → Prop) : Prop :=
  ∀ ⦃a a' : α⦄ ⦃c c' : Char⦄ ⦃x x' : List Char⦄, ok a → ok a' → follows c → follows c' →
    (content a).toList ++ c :: x = (content a').toList ++ c' :: x' → a = a' ∧ c = c' ∧ x = x'

/-- The items that are left of a list, each after a separator, and the end of the list. -/
def remainder (content : α → String) (separator : String) (ending : List Char) : List α → List Char
  | [] => ending
  | a :: l => separator.toList ++ (content a).toList ++ remainder content separator ending l

theorem toList_intercalate_append (content : α → String) (separator : String) (ending : List Char)
    (a : α) (l : List α) : (separator.intercalate ((a :: l).map content)).toList ++ ending =
      (content a).toList ++ remainder content separator ending l := by
  induction l generalizing a with
  | nil => rw [List.map_singleton, String.intercalate_singleton, remainder]
  | cons b l ih =>
    rw [List.map_cons, List.map_cons, String.intercalate_cons_cons, ← List.map_cons, remainder,
      List.append_assoc, ← ih b]
    simp only [String.toList_append, List.append_assoc]

theorem exists_remainder_eq_cons (content : α → String)
    (hseparator : separator.toList = first :: more) (hfirst : follows first)
    (hclose : follows close) (l : List α) (x : List Char) :
    ∃ c y, remainder content separator (close :: x) l = c :: y ∧ follows c := by
  cases l with
  | nil => exact ⟨close, x, rfl, hclose⟩
  | cons b l =>
    rw [remainder, hseparator]
    exact ⟨first, _, rfl, hfirst⟩

/-- The first item is cut off before a separator or before the end of the list. -/
theorem Detachable.eq_and_remainder_eq (h : Detachable content ok follows)
    (hseparator : separator.toList = first :: more) (hfirst : follows first)
    (hclose : follows close) {a a' : α} {l l' : List α} {x x' : List Char} (ha : ok a)
    (ha' : ok a') (heq : (content a).toList ++ remainder content separator (close :: x) l =
      (content a').toList ++ remainder content separator (close :: x') l') :
    a = a' ∧ remainder content separator (close :: x) l =
      remainder content separator (close :: x') l' := by
  obtain ⟨c, y, hy, hc⟩ := exists_remainder_eq_cons content hseparator hfirst hclose l x
  obtain ⟨c', y', hy', hc'⟩ := exists_remainder_eq_cons content hseparator hfirst hclose l' x'
  rw [hy, hy'] at heq ⊢
  obtain ⟨rfl, rfl, rfl⟩ := h ha ha' hc hc' heq
  exact ⟨rfl, rfl⟩

theorem Detachable.eq_of_remainder_eq (h : Detachable content ok follows)
    (hseparator : separator.toList = first :: more) (hfirst : follows first)
    (hclose : follows close) (hne : first ≠ close) {a a' : α} {l l' : List α} {x x' : List Char}
    (hl : ∀ b ∈ a :: l, ok b) (hl' : ∀ b ∈ a' :: l', ok b)
    (heq : (content a).toList ++ remainder content separator (close :: x) l =
      (content a').toList ++ remainder content separator (close :: x') l') :
    a = a' ∧ l = l' ∧ x = x' := by
  induction l generalizing a a' l' with
  | nil =>
    obtain ⟨rfl, hrest⟩ := h.eq_and_remainder_eq hseparator hfirst hclose
      (hl a List.mem_cons_self) (hl' a' List.mem_cons_self) heq
    cases l' with
    | nil => exact ⟨rfl, rfl, (List.cons.inj hrest).2⟩
    | cons b' l' =>
      rw [remainder, remainder, hseparator] at hrest
      exact absurd (List.cons.inj hrest).1.symm hne
  | cons b l ih =>
    obtain ⟨rfl, hrest⟩ := h.eq_and_remainder_eq hseparator hfirst hclose
      (hl a List.mem_cons_self) (hl' a' List.mem_cons_self) heq
    cases l' with
    | nil =>
      rw [remainder, remainder, hseparator] at hrest
      exact absurd (List.cons.inj hrest).1 hne
    | cons b' l' =>
      rw [remainder, remainder, List.append_assoc, List.append_assoc] at hrest
      obtain ⟨rfl, rfl, rfl⟩ := ih (List.forall_mem_cons.1 hl).2 (List.forall_mem_cons.1 hl').2
        (List.append_cancel_left hrest)
      exact ⟨rfl, rfl, rfl⟩

/-- A list shows where it ends if its items do and the closing character begins none of them. -/
theorem Detachable.eq_of_list_eq (h : Detachable content ok follows)
    (hseparator : separator.toList = first :: more) (hfirst : follows first)
    (hclose : follows close) (hne : first ≠ close)
    (hstart : ∀ a, ok a → ∃ c y, (content a).toList = c :: y ∧ c ≠ close)
    {l l' : List α} {x x' : List Char} (hl : ∀ a ∈ l, ok a) (hl' : ∀ a ∈ l', ok a)
    (heq : (separator.intercalate (l.map content)).toList ++ close :: x =
      (separator.intercalate (l'.map content)).toList ++ close :: x') : l = l' ∧ x = x' := by
  have hempty : ∀ {a : α} {l : List α} {x y : List Char}, ok a →
      close :: y ≠ (separator.intercalate ((a :: l).map content)).toList ++ close :: x := by
    intro a l x y ha heq
    obtain ⟨c, z, hcontent, hc⟩ := hstart a ha
    rw [toList_intercalate_append, hcontent] at heq
    exact hc (List.cons.inj heq).1.symm
  match l, l' with
  | [], [] => exact ⟨rfl, (List.cons.inj heq).2⟩
  | [], a' :: l' => exact absurd heq (hempty (hl' a' List.mem_cons_self))
  | a :: l, [] => exact absurd heq.symm (hempty (hl a List.mem_cons_self))
  | a :: l, a' :: l' =>
    rw [toList_intercalate_append, toList_intercalate_append] at heq
    obtain ⟨rfl, rfl, rfl⟩ := h.eq_of_remainder_eq hseparator hfirst hclose hne hl hl' heq
    exact ⟨rfl, rfl⟩

/-- A list with commas, in brackets of which the closing one begins no item. -/
theorem Detachable.bracketed (h : Detachable content ok follows) (opening : String)
    {closing : String} (hclosing : closing.toList = [close]) (hcomma : follows ',')
    (hclose : follows close) (hne : ',' ≠ close)
    (hstart : ∀ a, ok a → ∃ c y, (content a).toList = c :: y ∧ c ≠ close) :
    Detachable (fun l : List α => opening ++ ", ".intercalate (l.map content) ++ closing)
      (fun l => ∀ a ∈ l, ok a) fun _ => True := by
  intro l l' c c' x x' hl hl' _ _ heq
  rw [String.toList_append, String.toList_append, String.toList_append, String.toList_append,
    hclosing] at heq
  simp only [List.append_assoc, List.cons_append, List.nil_append] at heq
  have hseparator : ", ".toList = [',', ' '] := by decide
  obtain ⟨rfl, hrest⟩ := h.eq_of_list_eq hseparator hcomma hclose hne hstart hl hl'
    (List.append_cancel_left heq)
  obtain ⟨rfl, rfl⟩ := List.cons.inj hrest
  exact ⟨rfl, rfl, rfl⟩

end Detachable

theorem exists_start_of_isIdentifier {name : String} (h : isIdentifier name = true) :
    ∃ c y, name.toList = c :: y ∧ isIdentifierRest c = true := by
  cases hname : name.toList with
  | nil =>
    rw [isIdentifier, hname] at h
    cases h
  | cons c y =>
    refine ⟨c, y, rfl, ?_⟩
    by_contra hc
    refine not_mem_of_isIdentifier h (Bool.eq_false_iff.2 hc) ?_
    rw [hname]
    exact List.mem_cons_self

/-- An identifier ends before the first character that none has. -/
theorem detachable_identifier : Detachable id (fun name => isIdentifier name = true)
    (fun c => isIdentifierRest c = false) := by
  intro name name' c c' x x' hname hname' hc hc' heq
  have hcut : ∀ {name : String} {c : Char} {x : List Char}, isIdentifier name = true →
      isIdentifierRest c = false →
      (name.toList ++ c :: x).takeWhile isIdentifierRest = name.toList := by
    intro name c x hname hc
    have hall : ∀ d ∈ name.toList, isIdentifierRest d = true := by
      intro d hd
      by_contra hrest
      exact not_mem_of_isIdentifier hname (Bool.eq_false_iff.2 hrest) hd
    rw [List.takeWhile_append_of_pos hall, List.takeWhile_cons_of_neg (by simp [hc]),
      List.append_nil]
  have hnames : name.toList = name'.toList := by
    rw [← hcut hname hc, ← hcut hname' hc']
    exact congrArg _ heq
  obtain rfl := String.toList_inj.1 hnames
  obtain ⟨rfl, rfl⟩ := List.cons.inj (List.append_cancel_left heq)
  exact ⟨rfl, rfl, rfl⟩

namespace Annotation

/-- A value ends at its second quotation mark. -/
theorem detachable_valueText :
    Detachable valueText (fun value => '"' ∉ value.toList) fun _ => True := by
  intro value value' c c' x x' hvalue hvalue' _ _ heq
  have hquoted : ∀ value : String, (valueText value).toList = '"' :: (value.toList ++ ['"']) := by
    intro value
    simp [valueText]
  rw [hquoted, hquoted] at heq
  simp only [List.cons_append, List.append_assoc, List.nil_append] at heq
  obtain ⟨hchars, hrest⟩ := eq_and_eq_of_append_cons_eq hvalue hvalue' (List.cons.inj heq).2
  obtain ⟨rfl, rfl⟩ := List.cons.inj hrest
  exact ⟨String.toList_inj.1 hchars, rfl, rfl⟩

theorem detachable_bracedText :
    Detachable bracedText (fun values => ∀ value ∈ values, '"' ∉ value.toList) fun _ => True := by
  have hclosing : "\x7d".toList = ['\x7d'] := by decide
  refine detachable_valueText.bracketed "\x7b" hclosing trivial trivial (by decide) ?_
  intro value _
  exact ⟨'"', value.toList ++ ['"'], by simp [valueText], by decide⟩

/-- The first character tells a single value from a list. -/
theorem detachable_valuesText :
    Detachable valuesText (fun values => ∀ value ∈ values, '"' ∉ value.toList) fun _ => True := by
  have hfirst : ∀ (value : String) (values : List String) (x y : List Char),
      (valueText value).toList ++ x ≠ (bracedText values).toList ++ y := by
    intro value values x y heq
    simp [valueText, bracedText] at heq
  intro values values' c c' x x' hvalues hvalues' hc hc' heq
  rcases valuesText_cases values with ⟨value, rfl, htext⟩ | ⟨-, htext⟩ <;>
    rcases valuesText_cases values' with ⟨value', rfl, htext'⟩ | ⟨-, htext'⟩ <;>
    rw [htext, htext'] at heq
  · obtain ⟨rfl, hrest⟩ := detachable_valueText (hvalues value List.mem_cons_self)
      (hvalues' value' List.mem_cons_self) hc hc' heq
    exact ⟨rfl, hrest⟩
  · exact absurd heq (hfirst _ _ _ _)
  · exact absurd heq.symm (hfirst _ _ _ _)
  · exact detachable_bracedText hvalues hvalues' hc hc' heq

/-- A parameter with an identifier for its name and no quotation mark in its values. -/
structure Param.Readable (p : Param) : Prop where
  name : isIdentifier p.name = true
  values : ∀ value ∈ p.values, '"' ∉ value.toList

theorem Param.toList_text (p : Param) :
    p.text.toList = p.name.toList ++ '=' :: (valuesText p.values).toList := by
  simp [Param.text]

theorem detachable_param : Detachable Param.text Param.Readable fun _ => True := by
  intro p p' c c' x x' hp hp' hc hc' heq
  rw [p.toList_text, p'.toList_text, List.append_assoc, List.append_assoc] at heq
  obtain ⟨hname, -, hrest⟩ :=
    detachable_identifier hp.name hp'.name (by decide) (by decide) heq
  obtain ⟨hvalues, hend⟩ := detachable_valuesText hp.values hp'.values hc hc' hrest
  obtain ⟨name, values⟩ := p
  obtain ⟨name', values'⟩ := p'
  obtain rfl : name = name' := hname
  obtain rfl : values = values' := hvalues
  exact ⟨rfl, hend⟩

theorem detachable_listText :
    Detachable listText (fun params => ∀ p ∈ params, p.Readable) fun _ => True := by
  have hclosing : ")".toList = [')'] := by decide
  refine detachable_param.bracketed "(" hclosing trivial trivial (by decide) ?_
  intro p hp
  obtain ⟨c, y, hname, hc⟩ := exists_start_of_isIdentifier hp.name
  refine ⟨c, y ++ '=' :: (valuesText p.values).toList, ?_, ?_⟩
  · rw [p.toList_text, hname, List.cons_append]
  · rintro rfl
    cases hc

/-- A named annotation that passes its check, with parameters that can be read back. -/
def Readable : Annotation → Prop
  | named name params =>
    (named name params).validate = .ok () ∧ ∀ p ∈ params, p.Readable
  | foreign _ => False

theorem toList_text_append (name : String) (params : List Param) (x : List Char) :
    (named name params).text.toList ++ x =
      '@' :: (name.toList ++ ((paramsText params).toList ++ x)) := by
  simp [text]

theorem exists_listText_append (params : List Param) (x : List Char) :
    ∃ y, (listText params).toList ++ x = '(' :: y := by
  rw [listText, String.toList_append, String.toList_append]
  exact ⟨_, rfl⟩

/-- Parameters are told from none by their bracket, and end at the closing one. -/
theorem detachable_paramsText :
    Detachable paramsText (fun params => ∀ p ∈ params, p.Readable) fun c => c ≠ '(' := by
  intro params params' c c' x x' hparams hparams' hc hc' heq
  by_cases hnil : params = [] <;> by_cases hnil' : params' = []
  · subst hnil hnil'
    obtain ⟨rfl, rfl⟩ := List.cons.inj heq
    exact ⟨rfl, rfl, rfl⟩
  · obtain ⟨y', hy'⟩ := exists_listText_append params' (c' :: x')
    rw [hnil, paramsText_of_ne_nil hnil', hy'] at heq
    exact absurd (List.cons.inj heq).1 hc
  · obtain ⟨y, hy⟩ := exists_listText_append params (c :: x)
    rw [hnil', paramsText_of_ne_nil hnil, hy] at heq
    exact absurd (List.cons.inj heq).1.symm hc'
  · rw [paramsText_of_ne_nil hnil, paramsText_of_ne_nil hnil'] at heq
    exact detachable_listText hparams hparams' trivial trivial heq

/-- A name ends at its parameters, or at what follows the annotation. -/
theorem detachable_text : Detachable text Readable fun c => c = ' ' ∨ c = '\n' := by
  have hnext : ∀ (params : List Param) (c : Char) (x : List Char), c = ' ' ∨ c = '\n' →
      ∃ d y, (paramsText params).toList ++ c :: x = d :: y ∧ isIdentifierRest d = false := by
    intro params c x hc
    match params with
    | [] =>
      refine ⟨c, x, rfl, ?_⟩
      rcases hc with rfl | rfl <;> decide
    | p :: params =>
      obtain ⟨y, hy⟩ := exists_listText_append (p :: params) (c :: x)
      rw [paramsText_of_ne_nil (List.cons_ne_nil p params)]
      exact ⟨'(', y, hy, by decide⟩
  have hbracket : ∀ c, c = ' ' ∨ c = '\n' → c ≠ '(' := by
    rintro c (rfl | rfl) <;> decide
  intro a a' c c' x x' ha ha' hc hc' heq
  match a, a' with
  | named name params, named name' params' =>
    obtain ⟨hok, hparams⟩ := ha
    obtain ⟨hok', hparams'⟩ := ha'
    obtain ⟨d, y, hy, hd⟩ := hnext params c x hc
    obtain ⟨d', y', hy', hd'⟩ := hnext params' c' x' hc'
    rw [toList_text_append, toList_text_append, hy, hy'] at heq
    obtain ⟨hname, rfl, rfl⟩ := detachable_identifier (isIdentifier_of_validate_eq_ok hok)
      (isIdentifier_of_validate_eq_ok hok') hd hd' (List.cons.inj heq).2
    obtain ⟨rfl, hend⟩ := detachable_paramsText hparams hparams' (hbracket c hc) (hbracket c' hc')
      (hy.trans hy'.symm)
    obtain rfl : name = name' := hname
    exact ⟨rfl, hend⟩
  | named _ _, foreign _ => exact ha'.elim
  | foreign _, _ => exact ha.elim

theorem Readable.isNamed {a : Annotation} (h : a.Readable) : a.IsNamed := by
  match a with
  | named _ _ => trivial
  | foreign _ => exact h.elim

variable {as as' : List Annotation}

theorem eq_of_commentText_eq (h : ∀ a ∈ as, a.Readable) (h' : ∀ a ∈ as', a.Readable)
    (heq : commentText as = commentText as') : as = as' := by
  have hslash : ∀ {as : List Annotation}, as ≠ [] → commentText as ≠ "" := by
    intro as hne hempty
    rw [commentText_of_ne_nil hne] at hempty
    simp [String.append_eq_empty_iff] at hempty
  by_cases hnil : as = [] <;> by_cases hnil' : as' = []
  · rw [hnil, hnil']
  · rw [hnil] at heq
    exact absurd heq.symm (hslash hnil')
  · rw [hnil'] at heq
    exact absurd heq (hslash hnil)
  · rw [commentText_of_ne_nil hnil, commentText_of_ne_nil hnil', String.append_assoc,
      String.append_assoc, String.append_right_inj] at heq
    have hlist := congrArg String.toList heq
    have hseparator : " ".toList = [' '] := by decide
    have hclosing : "\n".toList = ['\n'] := by decide
    have hstart : ∀ a : Annotation, a.Readable → ∃ c y, a.text.toList = c :: y ∧ c ≠ '\n' := by
      intro a ha
      match a with
      | named name params =>
        have htext := toList_text_append name params []
        rw [List.append_nil] at htext
        exact ⟨'@', _, htext, by decide⟩
      | foreign _ => exact ha.elim
    rw [String.toList_append, String.toList_append, hclosing] at hlist
    exact (detachable_text.eq_of_list_eq hseparator (.inl rfl) (.inr rfl) (by decide) hstart h h'
      hlist).1

/-- The comments for two lists of annotations are the same if and only if the lists are. -/
theorem comment_output_eq_iff (h : ∀ a ∈ as, a.Readable) (h' : ∀ a ∈ as', a.Readable)
    (width width' : Nat) :
    ((comment as).run (.start width)).output = ((comment as').run (.start width')).output ↔
      as = as' := by
  rw [comment_run fun a ha => (h a ha).isNamed, comment_run fun a ha => (h' a ha).isNamed,
    Sink.output_push_start, Sink.output_push_start]
  exact ⟨eq_of_commentText_eq h h', congrArg commentText⟩

/-- A comma in a value is told from one between two values. -/
theorem comments_of_commas_differ :
    let flow (values : List String) : Annotation := .named "callflow" [⟨"next", values⟩]
    let as := [flow ["open, close"], named "entry" []]
    let as' := [flow ["open", "close"], named "entry" []]
    (∀ a ∈ as, a.Readable) ∧ (∀ a ∈ as', a.Readable) ∧
      ((comment as).run (.start 4)).output ≠ ((comment as').run (.start 4)).output := by
  intro flow as as'
  have hflow : ∀ values, (∀ value ∈ values, '"' ∉ value.toList) → (flow values).Readable := by
    intro values hvalues
    refine ⟨rfl, fun p hp => ?_⟩
    rw [List.mem_singleton.1 hp]
    exact ⟨(by decide : isIdentifier "next" = true), hvalues⟩
  have hentry : (named "entry" []).Readable := ⟨rfl, nofun⟩
  have has : ∀ a ∈ as, a.Readable := by
    intro a ha
    rcases List.mem_pair.1 ha with rfl | rfl
    · exact hflow _ (by decide)
    · exact hentry
  have has' : ∀ a ∈ as', a.Readable := by
    intro a ha
    rcases List.mem_pair.1 ha with rfl | rfl
    · exact hflow _ (by decide)
    · exact hentry
  refine ⟨has, has', fun heq => ?_⟩
  have hlists := (comment_output_eq_iff has has' 4 4).1 heq
  simp [as, as', flow] at hlists

end Annotation
end Idl
