import Idl.Proofs.Relocation

/-!
# Whole lines

A document is whole if, begun at the start of a line, it also ends at one. What comes after a whole
document begins as on a fresh sink, so the text of the two is the text of the first and then that of
the second. Documents that are put together from whole ones can be taken apart in this way.
-/

namespace Idl

theorem replay_level_zero (width : Nat) (start : Bool) (cs : List Char) :
    replay width start (cs.map fun c => (c, 0)) = cs := by
  induction cs generalizing start with
  | nil => rfl
  | cons c cs ih =>
    have hlead : lead width start (c, 0) = [] := by simp [lead]
    rw [List.map_cons, replay, hlead, ih, List.nil_append]

/-- A fresh sink is at the outermost level, so it holds what is pushed on it. -/
theorem Sink.output_push_start (width : Nat) (s : String) :
    ((Sink.start width).push s).output = s := by
  change ((Doc.text s).run (.start width)).output = s
  rw [Doc.output_run_start, Doc.written, replay_level_zero, String.ofList_toList]

namespace Doc

variable {d e : Doc} {ds : List Doc}

/-- Begun at the start of a line, the document ends at one. -/
def Whole (d : Doc) : Prop := ∀ k : Sink, k.atLineStart = true → (d.run k).atLineStart = true

theorem whole_empty : empty.Whole := fun _ h => h

theorem Whole.append (hd : d.Whole) (he : e.Whole) : (d ++ e).Whole :=
  fun k hk => he (d.run k) (hd k hk)

theorem Whole.nest (h : d.Whole) : (nest d).Whole := fun k hk => h k.enter hk

/-- A line feed at the end is enough, whatever comes before it. -/
theorem whole_append_line (d : Doc) (s : String) : (d ++ text (s ++ "\n")).Whole :=
  fun k _ => atLineStart_run_line s (d.run k)

theorem whole_line (s : String) : (text (s ++ "\n")).Whole := fun k _ => atLineStart_run_line s k

theorem whole_text_append (s line : String) : (text (s ++ (line ++ "\n"))).Whole := by
  rw [← String.append_assoc]
  exact whole_line (s ++ line)

theorem whole_ofLines (lines : List String) : (ofLines lines).Whole := by
  induction lines with
  | nil =>
    intro k hk
    change (k.push (String.join [])).atLineStart = true
    rwa [String.join_nil, Sink.push_empty]
  | cons line rest ih =>
    intro k hk
    change (k.push (String.join ((line :: rest).map (· ++ "\n")))).atLineStart = true
    rw [List.map_cons, String.join_cons, Sink.push_append]
    exact ih _ (atLineStart_run_line line k)

theorem whole_concat (h : ∀ d ∈ ds, d.Whole) : (concat ds).Whole := by
  induction ds with
  | nil => exact whole_empty
  | cons d ds ih =>
    obtain ⟨hd, hds⟩ := List.forall_mem_cons.1 h
    exact hd.append (ih hds)

theorem toText_text (s : String) : (text s).toText = s := Sink.output_push_start standardWidth s

/-- What only pushes a text is that text. -/
theorem toText_of_run {s : String} (h : ∀ k : Sink, d.run k = k.push s) : d.toText = s := by
  rw [← toText_text s]
  exact congrArg Sink.output (h _)

/-- After a whole document everything is written as on its own. -/
theorem toText_append (h : d.Whole) (e : Doc) : (d ++ e).toText = d.toText ++ e.toText := by
  have hstart : (d.run (.start standardWidth)).atLineStart = true := h _ rfl
  have hown : e.toText = e.relocated standardWidth 0 := by
    rw [toText, output_run rfl]
    exact String.empty_append
  calc (d ++ e).toText
      = d.toText ++ e.relocated (d.run (.start standardWidth)).width
          (d.run (.start standardWidth)).level := output_run hstart e
    _ = d.toText ++ e.toText := by
        rw [width_run, level_run, hown]
        rfl

theorem toText_concat (h : ∀ d ∈ ds, d.Whole) :
    (concat ds).toText = String.join (ds.map toText) := by
  induction ds with
  | nil => rfl
  | cons d ds ih =>
    obtain ⟨hd, hds⟩ := List.forall_mem_cons.1 h
    rw [List.map_cons, String.join_cons, ← ih hds]
    exact toText_append hd (concat ds)

/-- What is nested after a line appears one level deeper than on its own. -/
theorem toText_line_append_nest (s : String) (d : Doc) :
    (text (s ++ "\n") ++ nest d).toText = s ++ "\n" ++ d.relocated standardWidth 1 := by
  have hline : ((text (s ++ "\n")).run (.start standardWidth)).atLineStart = true :=
    atLineStart_run_line s _
  have houtput := (run_nest_after hline d).2
  change _ = (text (s ++ "\n")).toText ++ _ at houtput
  rw [toText_text] at houtput
  exact houtput

end Doc
end Idl
