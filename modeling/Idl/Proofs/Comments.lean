import Idl.Proofs.Course
import Idl.Proofs.Separators
import Idl.Proofs.WholeLines

/-!
# Annotations in a comment

The annotations of a method stand in a comment before its native declaration. Those that are not an
embedder's have identifiers for names, but nothing is asked of the names and values of their
parameters, which are written as they are. So the comment is one line exactly if none of these holds
a line feed, and what comes after a line feed lands outside the comment.
-/

namespace Idl

namespace Annotation

variable {name : String} {params : List Param} {as : List Annotation}

def IsNamed : Annotation → Prop
  | named _ _ => True
  | foreign _ => False

def valueText (value : String) : String := "\"" ++ value ++ "\""

def bracedText (values : List String) : String :=
  "\x7b" ++ ", ".intercalate (values.map valueText) ++ "\x7d"

/-- A single value stands without braces. -/
def valuesText : List String → String
  | [value] => valueText value
  | values => bracedText values

theorem valuesText_cases (values : List String) :
    (∃ value, values = [value] ∧ valuesText values = valueText value) ∨
      values.length ≠ 1 ∧ valuesText values = bracedText values := by
  match values with
  | [] => exact .inr ⟨nofun, rfl⟩
  | [value] => exact .inl ⟨value, rfl, rfl⟩
  | value :: next :: rest => exact .inr ⟨nofun, rfl⟩

def Param.text (p : Param) : String := p.name ++ "=" ++ valuesText p.values

def listText (params : List Param) : String :=
  "(" ++ ", ".intercalate (params.map Param.text) ++ ")"

def paramsText : List Param → String
  | [] => ""
  | params => listText params

/-- What an annotation is written as, on its own if it is an embedder's. -/
def text : Annotation → String
  | named name params => "@" ++ name ++ paramsText params
  | foreign a => a.source.toText

def commentText : List Annotation → String
  | [] => ""
  | as => "// " ++ " ".intercalate (as.map text) ++ "\n"

theorem paramsText_of_ne_nil (h : params ≠ []) : paramsText params = listText params := by
  rw [paramsText]
  exact h

theorem commentText_of_ne_nil (h : as ≠ []) :
    commentText as = "// " ++ " ".intercalate (as.map text) ++ "\n" := by
  rw [commentText]
  exact h

/-- The texts that are asked for nothing and written as they are. -/
def unchecked : Annotation → List String
  | named _ params => params.flatMap fun p => p.name :: p.values
  | foreign _ => []

theorem source_run_param (p : Param) (k : Sink) : p.source.run k = k.push p.text := by
  have hbraced : ∀ (values : List String) (k : Sink),
      (Doc.text "\x7b" ++ Doc.join ", " (values.map valueSource) ++ Doc.text "\x7d").run k =
        k.push (bracedText values) :=
    fun values k => Doc.run_join_between (fun _ _ _ => rfl) ", " "\x7b" "\x7d" k
  obtain ⟨name, values⟩ := p
  rw [Param.text, Sink.push_append]
  match values with
  | [] => exact hbraced [] _
  | [value] => rfl
  | value :: next :: rest => exact hbraced (value :: next :: rest) _

theorem source_run {a : Annotation} (h : a.IsNamed) (k : Sink) :
    a.source.run k = k.push a.text := by
  match a with
  | named name [] =>
    rw [text, paramsText, String.append_empty]
    rfl
  | named name (p :: params) =>
    have hparams : (named name (p :: params)).source.run k = k.push
        ("@" ++ name ++ "(" ++ ", ".intercalate ((p :: params).map Param.text) ++ ")") :=
      Doc.run_join_between (fun p _ => source_run_param p) ", " ("@" ++ name ++ "(") ")" k
    rw [hparams, text, paramsText_of_ne_nil (List.cons_ne_nil p params), listText]
    simp only [String.append_assoc]
  | foreign a => exact h.elim

theorem comment_run (h : ∀ a ∈ as, a.IsNamed) (k : Sink) :
    (comment as).run k = k.push (commentText as) := by
  match as with
  | [] => exact k.push_empty.symm
  | a :: as =>
    rw [commentText_of_ne_nil (List.cons_ne_nil a as)]
    exact Doc.run_join_between (fun b hb => source_run (h b hb)) " " "// " "\n" k

theorem isIdentifier_of_validate_eq_ok (h : (named name params).validate = .ok ()) :
    isIdentifier name = true := by
  rw [validate] at h
  by_cases hname : isIdentifier name = true
  · exact hname
  · rw [if_neg hname] at h
    cases h

theorem newline_mem_valuesText_iff (values : List String) :
    '\n' ∈ (valuesText values).toList ↔ ∃ value ∈ values, '\n' ∈ value.toList := by
  rcases valuesText_cases values with ⟨value, rfl, htext⟩ | ⟨-, htext⟩ <;> rw [htext]
  · simp [valueText]
  · simp [bracedText, Text.mem_intercalate_iff, valueText]

theorem newline_mem_paramsText_iff (params : List Param) :
    '\n' ∈ (paramsText params).toList ↔
      ∃ p ∈ params, ∃ part ∈ p.name :: p.values, '\n' ∈ part.toList := by
  have hparam : ∀ p : Param, '\n' ∈ p.text.toList ↔
      ∃ part ∈ p.name :: p.values, '\n' ∈ part.toList := by
    intro p
    simp [Param.text, newline_mem_valuesText_iff]
  by_cases hnil : params = []
  · simp [hnil, paramsText]
  · rw [paramsText_of_ne_nil hnil]
    simp [listText, Text.mem_intercalate_iff, hparam]

/-- A line feed in an annotation comes from its parameters. -/
theorem newline_mem_text_iff {a : Annotation} (h : a.IsNamed) (hok : a.validate = .ok ()) :
    '\n' ∈ a.text.toList ↔ ∃ part ∈ a.unchecked, '\n' ∈ part.toList := by
  match a with
  | named name params =>
    have hname : '\n' ∉ name.toList :=
      not_mem_of_isIdentifier (isIdentifier_of_validate_eq_ok hok) (by decide)
    have htext : '\n' ∈ (named name params).text.toList ↔ '\n' ∈ (paramsText params).toList := by
      simp [text, hname]
    rw [htext, newline_mem_paramsText_iff]
    simp only [unchecked, List.mem_flatMap]
    exact ⟨fun ⟨p, hp, part, hpart, hc⟩ => ⟨part, ⟨p, hp, hpart⟩, hc⟩,
      fun ⟨part, ⟨p, hp, hpart⟩, hc⟩ => ⟨p, hp, part, hpart, hc⟩⟩
  | foreign a => exact h.elim

/-- One comment that ends with its line, and nothing else. -/
def IsCommentLine (text : String) : Prop :=
  ∃ inside, text = "// " ++ inside ++ "\n" ∧ '\n' ∉ inside.toList

theorem isCommentLine_iff (inside : String) :
    IsCommentLine ("// " ++ inside ++ "\n") ↔ '\n' ∉ inside.toList := by
  refine ⟨fun ⟨inside', heq, hline⟩ => ?_, fun hline => ⟨inside, rfl, hline⟩⟩
  rw [String.append_left_inj, String.append_right_inj] at heq
  rwa [heq]

theorem isCommentLine_commentText_iff (hne : as ≠ []) (hnamed : ∀ a ∈ as, a.IsNamed)
    (hok : ∀ a ∈ as, a.validate = .ok ()) :
    IsCommentLine (commentText as) ↔ ∀ a ∈ as, ∀ part ∈ a.unchecked, '\n' ∉ part.toList := by
  have hnewline : ∀ a ∈ as, '\n' ∈ a.text.toList ↔ ∃ part ∈ a.unchecked, '\n' ∈ part.toList :=
    fun a ha => newline_mem_text_iff (hnamed a ha) (hok a ha)
  rw [commentText_of_ne_nil hne, isCommentLine_iff, String.toList_intercalate, List.map_map,
    Text.mem_intercalate_iff (by decide)]
  constructor
  · intro h a ha part hpart hc
    exact h ⟨_, List.mem_map_of_mem ha, (hnewline a ha).2 ⟨part, hpart, hc⟩⟩
  · rintro h ⟨_, htext, hc⟩
    obtain ⟨a, ha, rfl⟩ := List.mem_map.1 htext
    obtain ⟨part, hpart, hc⟩ := (hnewline a ha).1 hc
    exact h a ha part hpart hc

end Annotation

namespace Method

open Annotation (comment comment_run commentText commentText_of_ne_nil IsCommentLine
  isCommentLine_iff isCommentLine_commentText_iff)

variable {s : Scope} {m : Method}

theorem validate_annotation_of_accepted (h : (m.analyze s).verdict = .ok ()) {a : Annotation}
    (ha : a ∈ m.annotations) : a.validate = .ok () :=
  (of_analyze_eq_ok h).2.2 (.attached a) (by simp [nodes, ha])

/-- Before the declaration of an accepted method stand its annotations in a comment. It is a single
line if and only if no name and no value of a parameter holds a line feed. -/
theorem isCommentLine_comment_iff (hok : (m.analyze s).verdict = .ok ())
    (hnamed : ∀ a ∈ m.annotations, a.IsNamed) (width : Nat) :
    let line := ((comment m.annotations).run (.start width)).output
    (m.annotations = [] → line = "") ∧
      (m.annotations ≠ [] → (∃ inside, line = "// " ++ inside ++ "\n") ∧
        (IsCommentLine line ↔
          ∀ a ∈ m.annotations, ∀ part ∈ a.unchecked, '\n' ∉ part.toList)) ∧
      ∀ (style : NativeStyle) (k : Sink),
        let g := m.signature (m.analyze s).scope
        (Native.declaration style g).run k =
          ((Native.signature style g).run (k.push line)).push ";\n" := by
  intro line
  have hline : line = commentText m.annotations := by
    change ((comment m.annotations).run _).output = _
    rw [comment_run hnamed, Sink.output_push_start]
  refine ⟨fun hnil => ?_, fun hne => ?_, ?_⟩
  · rw [hline, hnil, commentText]
  · have hvalid : ∀ a ∈ m.annotations, a.validate = .ok () :=
      fun a ha => validate_annotation_of_accepted hok ha
    rw [hline, isCommentLine_commentText_iff hne hnamed hvalid]
    exact ⟨⟨_, commentText_of_ne_nil hne⟩, Iff.rfl⟩
  · intro style k g
    change ((Native.signature style g).run ((comment m.annotations).run k)).push ";\n" = _
    rw [comment_run hnamed, hline]

/-- Quotation marks, slashes and closing brackets in a value leave the comment as it is. -/
theorem isCommentLine_comment_of_marks :
    let flow : Annotation :=
      .named "callflow" [⟨"next", ["close", "\") */ \x7d // @"]⟩, ⟨"key", []⟩]
    let m : Method := ⟨⟨0, "open", .empty, .empty, false, [.named "entry" [], flow]⟩, .empty,
      .ordinary none⟩
    (m.analyze .initial).verdict = .ok () ∧ (∀ a ∈ m.annotations, a.IsNamed) ∧
      IsCommentLine ((comment m.annotations).run (.start 2)).output := by
  intro flow m
  have hok : (m.analyze .initial).verdict = .ok () := rfl
  have hnamed : ∀ a ∈ m.annotations, a.IsNamed := by
    intro a ha
    rcases List.mem_pair.1 ha with rfl | rfl <;> trivial
  obtain ⟨-, hline, -⟩ := isCommentLine_comment_iff hok hnamed 2
  refine ⟨hok, hnamed, (hline (List.cons_ne_nil _ _)).2.2 fun a ha => ?_⟩
  rcases List.mem_pair.1 ha with rfl | rfl <;> decide

/-- An accepted method with an annotation that leaves its comment. -/
theorem annotation_leaves_comment :
    let m : Method := ⟨⟨0, "open", .empty, .empty, false,
      [.named "note" [⟨"text", ["a\nint x;"]⟩]]⟩, .empty, .ordinary none⟩
    (m.analyze .initial).verdict = .ok () ∧ (∀ a ∈ m.annotations, a.IsNamed) ∧
      m.annotations ≠ [] ∧
      ¬ IsCommentLine ((comment m.annotations).run (.start 4)).output := by
  intro m
  have htext : ((comment m.annotations).run (.start 4)).output =
      "// " ++ "@note(text=\"a\nint x;\")" ++ "\n" := by decide
  refine ⟨rfl, fun a ha => ?_, List.cons_ne_nil _ _, ?_⟩
  · rw [List.mem_singleton.1 ha]
    trivial
  · rw [htext, isCommentLine_iff]
    decide

end Method
end Idl
