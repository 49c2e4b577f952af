import Idl.Doc.Sink
import Mathlib.Data.List.Infix

/-!
# Writing one character at a time

A document writes a sequence of characters, each at the level in force. A sink that takes them one
by one, and indents before the first character of a line, ends in the state that the document
leaves. So a run depends on these characters alone, and not on how text was cut into pieces.
-/

namespace Idl

/-- The characters that a document writes at a level, each with the level in force. -/
def Doc.written (level : Nat) : Doc → List (Char × Nat)
  | empty => []
  | text s => s.toList.map fun c => (c, level)
  | seq d e => d.written level ++ e.written level
  | nest d => d.written (level + 1)

theorem Doc.written_add (level : Nat) (d : Doc) (n : Nat) :
    d.written (n + level) = (d.written level).map fun e => (e.1, n + e.2) := by
  induction d generalizing level with
  | empty => rfl
  | text s => simp [written]
  | seq d e ihd ihe => rw [written, ihd, ihe, written, List.map_append]
  | nest d ih => exact ih (level + 1)

/-- A block writes its header, an opening brace, its body one level deeper, and a closing brace. -/
theorem Doc.written_block (level : Nat) (header : String) (body : Doc) :
    (block header body).written level =
      (if header = "" then "\x7b\n" else header ++ " \x7b\n").toList.map (fun c => (c, level)) ++
        body.written (level + 1) ++ "\x7d\n".toList.map fun c => (c, level) := by
  change (opening header).written level ++ body.written (level + 1) ++ _ = _
  unfold opening
  split
  · rfl
  · change header.toList.map _ ++ " \x7b\n".toList.map _ ++ _ ++ _ = _
    rw [← List.map_append, ← String.toList_append]
    rfl

theorem Doc.written_join (level : Nat) (separator : String) (ds : List Doc) :
    (join separator ds).written level =
      (separator.toList.map fun c => (c, level)).intercalate (ds.map (written level)) := by
  cases ds with
  | nil => rfl
  | cons d ds =>
    change d.written level ++ (concat _).written level = _
    induction ds generalizing d with
    | nil => simp [concat, written]
    | cons d' ds ih =>
      have ih := ih d'
      simp only [List.map_cons, List.intercalate_cons_cons] at ih ⊢
      rw [← ih, List.append_assoc, ← List.append_assoc _ (d'.written level)]
      rfl

/-- What is written before a character, `start` telling whether it begins a line. -/
def lead (width : Nat) (start : Bool) (e : Char × Nat) : List Char :=
  if start = true ∧ e.1 ≠ '\n' then List.replicate (e.2 * width) ' ' else []

/-- The characters one by one. The first begins a line if `start` says so, and any other if it
follows a line feed. -/
def replay (width : Nat) : Bool → List (Char × Nat) → List Char
  | _, [] => []
  | start, e :: rest => lead width start e ++ e.1 :: replay width (e.1 == '\n') rest

/-- Whether a character after these would begin a line. -/
def lineStart (start : Bool) (es : List (Char × Nat)) : Bool :=
  es.foldl (fun _ e => e.1 == '\n') start

theorem lineStart_append (start : Bool) (es es' : List (Char × Nat)) :
    lineStart start (es ++ es') = lineStart (lineStart start es) es' := List.foldl_append

theorem replay_append (width : Nat) (start : Bool) (es es' : List (Char × Nat)) :
    replay width start (es ++ es') =
      replay width start es ++ replay width (lineStart start es) es' := by
  induction es generalizing start with
  | nil => rfl
  | cons e rest ih =>
    rw [List.cons_append, replay, ih, replay, List.append_assoc, List.cons_append]
    rfl

namespace Sink

def write (k : Sink) (es : List (Char × Nat)) : Sink :=
  { k with
    output := k.output ++ String.ofList (replay k.width k.atLineStart es)
    atLineStart := lineStart k.atLineStart es }

@[simp] theorem write_nil (k : Sink) : k.write [] = k := by
  simp [write, replay, lineStart]

theorem write_append (k : Sink) (es es' : List (Char × Nat)) :
    k.write (es ++ es') = (k.write es).write es' := by
  simp only [write, replay_append, lineStart_append, String.ofList_append, String.append_assoc]

theorem write_cons (k : Sink) (e : Char × Nat) (es : List (Char × Nat)) :
    k.write (e :: es) = (k.write [e]).write es := write_append k [e] es

theorem write_singleton (k : Sink) (c : Char) :
    k.write [(c, k.level)] = if c = '\n' then k.breakLine else k.pushLine [c] := by
  by_cases hc : c = '\n'
  · simp [write, replay, lead, lineStart, breakLine, hc]
  · rw [if_neg hc, write, pushLine, if_neg (List.cons_ne_nil c [])]
    by_cases hstart : k.atLineStart = true
    · rw [if_pos hstart, indentation, String.append_assoc, ← String.ofList_append]
      simp [replay, lead, lineStart, hc, hstart]
    · rw [if_neg hstart]
      simp [replay, lead, lineStart, hc, hstart]

theorem push_eq_write (k : Sink) (s : String) :
    k.push s = k.write (s.toList.map fun c => (c, k.level)) := by
  rw [push]
  induction s.toList generalizing k with
  | nil => simp [Text.lines, pushLines, pushLine]
  | cons c rest ih =>
    rw [pushLines_lines_cons, ← write_singleton, ih]
    exact (k.write_cons (c, k.level) _).symm

/-- The flag says what the output says: that it is empty or ends in a line feed. -/
def Faithful (k : Sink) : Prop :=
  k.atLineStart = true ↔ k.output = "" ∨ k.output.toList.getLast? = some '\n'

theorem faithful_write {k : Sink} (h : k.Faithful) (es : List (Char × Nat)) :
    (k.write es).Faithful := by
  rcases List.eq_nil_or_concat es with rfl | ⟨before, e, rfl⟩
  · rwa [write_nil]
  · rw [List.concat_eq_append, write_append]
    simp [Faithful, write, replay, lineStart]

end Sink

namespace Doc

theorem run_eq_write (d : Doc) (k : Sink) : d.run k = k.write (d.written k.level) := by
  induction d generalizing k with
  | empty => exact k.write_nil.symm
  | text s => exact k.push_eq_write s
  | seq d e ihd ihe =>
    rw [run, ihe, ihd, written, Sink.write_append]
    rfl
  | nest d ih =>
    rw [run, ih]
    rfl

theorem output_run_start (width : Nat) (d : Doc) :
    (d.run (.start width)).output = String.ofList (replay width true (d.written 0)) := by
  rw [run_eq_write]
  exact String.empty_append

theorem level_run (d : Doc) (k : Sink) : (d.run k).level = k.level := by
  rw [run_eq_write]
  rfl

theorem width_run (d : Doc) (k : Sink) : (d.run k).width = k.width := by
  rw [run_eq_write]
  rfl

/-- The states that a sink goes through, also in the middle of a text. -/
def moments : Doc → Sink → List Sink
  | empty, k => [k]
  | text s, k => s.toList.inits.map fun before => k.push (String.ofList before)
  | seq d e, k => d.moments k ++ e.moments (d.run k)
  | nest d, k => k :: d.moments k.enter ++ [(d.run k.enter).leave]

theorem faithful_run {k : Sink} (h : k.Faithful) (d : Doc) : (d.run k).Faithful := by
  rw [run_eq_write]
  exact Sink.faithful_write h _

theorem faithful_of_mem_moments {d : Doc} {k k' : Sink} (h : k.Faithful) (hk' : k' ∈ d.moments k) :
    k'.Faithful := by
  induction d generalizing k with
  | empty => rwa [List.mem_singleton.1 hk']
  | text s =>
    obtain ⟨before, -, rfl⟩ := List.mem_map.1 hk'
    exact faithful_run h (text (String.ofList before))
  | seq d e ihd ihe =>
    rcases List.mem_append.1 hk' with hk' | hk'
    · exact ihd h hk'
    · exact ihe (faithful_run h d) hk'
  | nest d ih =>
    rcases List.mem_append.1 hk' with hk' | hk'
    · rcases List.mem_cons.1 hk' with rfl | hk'
      · exact h
      · exact ih (k := k.enter) h hk'
    · rw [List.mem_singleton.1 hk']
      exact faithful_run h (nest d)

end Doc

/-- One line of characters behind the indentation of its first. A line without any has none. -/
def indented (width : Nat) : List (Char × Nat) → List Char
  | [] => []
  | (c, level) :: rest => List.replicate (level * width) ' ' ++ c :: rest.map Prod.fst

theorem splitOnP_append_of_forall {α : Type} {p : α → Bool} {before : List α}
    (h : ∀ a ∈ before, p a = false) (after : List α) :
    (before ++ after).splitOnP p = (after.splitOnP p).modifyHead (before ++ ·) := by
  induction before with
  | nil => exact (congrFun List.modifyHead_id _).symm
  | cons a before ih =>
    rw [List.cons_append, List.splitOnP_cons_eq_if_modifyHead, h a List.mem_cons_self,
      ih fun b hb => h b (List.mem_cons_of_mem a hb), if_neg Bool.false_ne_true,
      List.modifyHead_modifyHead]
    rfl

theorem splitOn_replay (width : Nat) (start : Bool) (es : List (Char × Nat)) :
    ∃ first rest, es.splitOnP (fun e => e.1 == '\n') = first :: rest ∧
      (replay width start es).splitOn '\n' =
        (if start then indented width first else first.map Prod.fst) ::
          rest.map (indented width) := by
  induction es generalizing start with
  | nil => exact ⟨[], [], rfl, by cases start <;> rfl⟩
  | cons e es ih =>
    obtain ⟨first, rest, hes, hreplay⟩ := ih (e.1 == '\n')
    rw [List.splitOn_eq_splitOnP] at hreplay ⊢
    by_cases he : e.1 = '\n'
    · refine ⟨[], first :: rest, by simp [List.splitOnP_cons_eq_if_modifyHead, he, hes], ?_⟩
      have hlead : lead width start e = [] := if_neg fun h => h.2 he
      rw [replay, hlead, List.nil_append, List.splitOnP_cons_eq_if_modifyHead, hreplay]
      cases start <;> simp [he, indented]
    · refine ⟨e :: first, rest, by simp [List.splitOnP_cons_eq_if_modifyHead, he, hes], ?_⟩
      have hlead : ∀ c ∈ lead width start e ++ [e.1], (c == '\n') = false := by
        intro c hc
        rcases List.mem_append.1 hc with hc | hc
        · unfold lead at hc
          split at hc
          · rw [List.eq_of_mem_replicate hc]; rfl
          · cases hc
        · rw [List.mem_singleton.1 hc]
          exact beq_false_of_ne he
      rw [replay, List.append_cons, splitOnP_append_of_forall hlead, hreplay]
      cases start <;> simp [lead, he, indented]

theorem lines_replay (width : Nat) (es : List (Char × Nat)) :
    (replay width true es).splitOn '\n' =
      (es.splitOnP fun e => e.1 == '\n').map (indented width) := by
  obtain ⟨first, rest, hes, hreplay⟩ := splitOn_replay width true es
  rw [hes, hreplay, if_pos rfl, List.map_cons]

namespace Doc

/-- A fresh sink ends with the replay of the characters written, its lines are the lines written
behind their indentation, and it knows at all times whether it is at the start of a line. On any
sink, documents that write the same characters do the same. -/
theorem run_start_eq_replay (width : Nat) (d : Doc) :
    let k := d.run (.start width)
    k.output = String.ofList (replay width true (d.written 0)) ∧
      k.output.toList.splitOn '\n' =
        ((d.written 0).splitOnP fun e => e.1 == '\n').map (indented width) ∧
      (k.Faithful ∧ ∀ k' ∈ d.moments (.start width), k'.Faithful) ∧
      (∀ k' : Sink, (d.run k').level = k'.level) ∧
      (∀ (k' : Sink) (d' : Doc), d'.written k'.level = d.written k'.level → d'.run k' = d.run k') ∧
      ∀ (k' : Sink) (a b : String), (k'.push a).push b = k'.push (a ++ b) := by
  intro k
  have houtput : k.output = String.ofList (replay width true (d.written 0)) :=
    output_run_start width d
  have hstart : (Sink.start width).Faithful := by simp [Sink.Faithful, Sink.start]
  refine ⟨houtput, ?_, ⟨faithful_run hstart d, fun k' hk' => faithful_of_mem_moments hstart hk'⟩,
    d.level_run, fun k' d' h => ?_, fun k' a b => (k'.push_append a b).symm⟩
  · rw [houtput, String.toList_ofList, lines_replay]
  · rw [run_eq_write, run_eq_write, h]

/-- However a block is cut into pieces, its blank line stays blank and its last line, which is left
open, is closed at the level of its first character. -/
theorem run_block_cut_anywhere :
    let d := block "f" (text "a;\n\nb")
    let d' := text "f \x7b" ++ (newline ++ nest (text "a" ++ (text ";\n" ++ text "\nb"))) ++ closing
    d'.written 0 = d.written 0 ∧ d'.run (.start 2) = d.run (.start 2) ∧
      (Sink.start 2).push "f" ∈ d.moments (.start 2) ∧ ((Sink.start 2).push "f").Faithful ∧
      (d.run (.start 2)).output = "f \x7b\n  a;\n\n  b\x7d\n" := by
  intro d d'
  have hwritten : d'.written 0 = d.written 0 := rfl
  have hmoment : (Sink.start 2).push "f" ∈ d.moments (.start 2) := by decide
  obtain ⟨houtput, -, ⟨-, hmoments⟩, -, hcut, -⟩ := run_start_eq_replay 2 d
  exact ⟨hwritten, hcut (.start 2) d' hwritten, hmoment, hmoments _ hmoment,
    houtput.trans (by decide)⟩

end Doc
end Idl
