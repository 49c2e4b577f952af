import Idl.Proofs.Replay
import Idl.Rendering

/-!
# Moving text

Text that a document writes on its own is indented already. Pushed at the start of a line into
another sink, each of its lines takes the indentation in force there in front of its own, and the
sink ends as if the document had run on it. So a nested body is its own text moved to the right.
-/

namespace Idl

/-- What the document writes on a fresh sink. -/
def Doc.standalone (width : Nat) (d : Doc) : String := (d.run (.start width)).output

/-- A line moved to the right. Without a character it stays empty. -/
def shifted (spaces : Nat) (line : List Char) : List Char :=
  if line = [] then [] else List.replicate spaces ' ' ++ line

/-- The text of the document with each line moved to the level. -/
def Doc.relocated (width level : Nat) (d : Doc) : String :=
  String.ofList <| ['\n'].intercalate <|
    ((d.standalone width).toList.splitOn '\n').map (shifted (level * width))

section Lines

variable {width level : Nat} {cs : List Char}

theorem replay_within_line (h : '\n' ∉ cs) :
    replay width false (cs.map fun c => (c, level)) = cs := by
  induction cs with
  | nil => rfl
  | cons c cs ih =>
    have hc : (c == '\n') = false := beq_false_of_ne (List.ne_of_not_mem_cons h).symm
    rw [List.map_cons, replay, hc, ih (List.not_mem_of_not_mem_cons h)]
    rfl

theorem replay_line (h : '\n' ∉ cs) (hne : cs ≠ []) :
    replay width true (cs.map fun c => (c, level)) =
      List.replicate (level * width) ' ' ++ cs := by
  cases cs with
  | nil => exact absurd rfl hne
  | cons c cs =>
    have hc : c ≠ '\n' := (List.ne_of_not_mem_cons h).symm
    rw [List.map_cons, replay, beq_false_of_ne hc,
      replay_within_line (List.not_mem_of_not_mem_cons h), lead, if_pos ⟨rfl, hc⟩]

theorem splitOnP_map {α β : Type} (f : α → β) (p : β → Bool) (as : List α) :
    (as.map f).splitOnP p = (as.splitOnP (p ∘ f)).map (List.map f) := by
  induction as with
  | nil => rfl
  | cons a as ih =>
    obtain ⟨first, rest, has⟩ := List.exists_cons_of_ne_nil (List.splitOnP_ne_nil (p ∘ f) as)
    rw [List.map_cons, List.splitOnP_cons_eq_if_modifyHead, List.splitOnP_cons_eq_if_modifyHead,
      ih, has]
    by_cases hp : p (f a) = true
    · simp [hp]
    · simp [hp]

theorem indented_map (line : List Char) :
    indented width (line.map fun c => (c, level)) = shifted (level * width) line := by
  cases line with
  | nil => rfl
  | cons c line => simp [indented, shifted, Function.comp_def]

theorem replay_eq_intercalate (width level : Nat) (cs : List Char) :
    replay width true (cs.map fun c => (c, level)) =
      ['\n'].intercalate ((cs.splitOn '\n').map (shifted (level * width))) := by
  set text := cs.map fun c => (c, level)
  have hlines : (replay width true text).splitOn '\n' =
      (cs.splitOn '\n').map (shifted (level * width)) := by
    rw [lines_replay, splitOnP_map, List.map_map, List.splitOn_eq_splitOnP]
    exact List.map_congr_left fun line _ => indented_map line
  calc replay width true text
      = ['\n'].intercalate ((replay width true text).splitOn '\n') :=
        (List.intercalate_splitOn '\n').symm
    _ = ['\n'].intercalate ((cs.splitOn '\n').map (shifted (level * width))) := by rw [hlines]

end Lines

namespace Sink

/-- Indentation that is pushed as text adds to the indentation in force. -/
theorem write_lead_append (k : Sink) (c : Char) (n : Nat) :
    k.write ((lead k.width k.atLineStart (c, n) ++ [c]).map fun b => (b, k.level)) =
      k.write [(c, k.level + n)] := by
  by_cases h : k.atLineStart = true ∧ c ≠ '\n'
  · obtain ⟨hstart, hc⟩ := h
    have hline : '\n' ∉ List.replicate (n * k.width) ' ' ++ [c] := by
      intro hmem
      rcases List.mem_append.1 hmem with hmem | hmem
      · exact absurd (List.eq_of_mem_replicate hmem) (by decide)
      · exact hc (List.mem_singleton.1 hmem).symm
    have hlead : lead k.width true (c, n) = List.replicate (n * k.width) ' ' := if_pos ⟨rfl, hc⟩
    have hpushed : replay k.width true
        ((List.replicate (n * k.width) ' ' ++ [c]).map fun b => (b, k.level)) =
          replay k.width true [(c, k.level + n)] := by
      rw [replay_line hline (by simp), replay, lead, if_pos ⟨rfl, hc⟩, ← List.append_assoc,
        List.replicate_append_replicate, ← Nat.add_mul]
      rfl
    rw [write, write, hstart, hlead, hpushed]
    simp [lineStart]
  · have hlead : ∀ m, lead k.width k.atLineStart (c, m) = [] := fun m => if_neg h
    rw [hlead]
    simp [write, replay, hlead, lineStart]

/-- A replay that is pushed into a sink of the same flag writes its characters deeper. -/
theorem write_replay (k : Sink) (es : List (Char × Nat)) :
    k.write ((replay k.width k.atLineStart es).map fun c => (c, k.level)) =
      k.write (es.map fun e => (e.1, k.level + e.2)) := by
  induction es generalizing k with
  | nil => rfl
  | cons e es ih =>
    have hrest := ih (k.write [(e.1, k.level + e.2)])
    rw [replay, List.append_cons, List.map_append, write_append, write_lead_append, List.map_cons,
      k.write_cons _ (es.map _)]
    exact hrest

end Sink

namespace Doc

theorem standalone_eq_replay (width : Nat) (d : Doc) :
    (d.standalone width).toList = replay width true (d.written 0) := by
  rw [standalone, output_run_start, String.toList_ofList]

theorem run_eq_push {k : Sink} (h : k.atLineStart = true) (d : Doc) :
    d.run k = k.push (d.standalone k.width) := by
  calc d.run k
      = k.write ((d.written 0).map fun e => (e.1, k.level + e.2)) := by
        rw [run_eq_write, ← written_add, Nat.add_zero]
    _ = k.write ((replay k.width k.atLineStart (d.written 0)).map fun c => (c, k.level)) :=
        (k.write_replay _).symm
    _ = k.push (d.standalone k.width) := by
        rw [h, ← standalone_eq_replay, ← Sink.push_eq_write]

theorem output_run {k : Sink} (h : k.atLineStart = true) (d : Doc) :
    (d.run k).output = k.output ++ d.relocated k.width k.level := by
  rw [run_eq_push h, Sink.push_eq_write, relocated, ← replay_eq_intercalate, ← h]
  rfl

theorem atLineStart_run_line (s : String) (k : Sink) :
    ((text (s ++ "\n")).run k).atLineStart = true := by
  rw [run, Sink.push_append]
  rfl

/-- Where the head ends a line, only the text of a nested body matters. -/
theorem run_nest_after {head : Doc} {k : Sink} (h : (head.run k).atLineStart = true) (d : Doc) :
    (head ++ nest d).run k = (head ++ nest (text (d.standalone k.width))).run k ∧
      ((head ++ nest d).run k).output =
        (head.run k).output ++ d.relocated k.width (k.level + 1) := by
  have hlevel : (head.run k).enter.level = k.level + 1 := congrArg (· + 1) (head.level_run k)
  have hwidth : (head.run k).enter.width = k.width := head.width_run k
  have hinside : (head.run k).enter.atLineStart = true := h
  refine ⟨congrArg Sink.leave ?_, ?_⟩
  · rw [run_eq_push hinside, hwidth]
    rfl
  · rw [← hlevel, ← hwidth]
    exact output_run hinside d

theorem define_of_body {style : NativeStyle} {s : Scope} {m : Method} {role : Role} {p : Doc}
    (h : (Emitter.native style).body s m role = .ok p) :
    Native.define style s m role = .ok (Native.definition style (m.signature s) p) := by
  rw [Native.define, h]
  rfl

theorem roleSection_of_body {e : Emitter} {s : Scope} {m : Method} {role : Role} {p : Doc}
    (hbrings : e.brings m role = .ok true) (h : e.body s m role = .ok p) :
    e.roleSection s m role =
      .ok (text ("// " ++ e.backend.name ++ " " ++ role.name ++ "\n") ++ nest p) := by
  rw [Emitter.roleSection, hbrings]
  change (e.body s m role >>= _) = _
  rw [h]
  rfl

/-- At the start of a line a document does what pushing its own text does, and its lines appear
moved to the level there. So do those of a body in a definition and in the section of its role. -/
theorem run_eq_push_standalone (p : Doc) (k : Sink) (h : k.atLineStart = true) :
    (p.run k = k.push (p.standalone k.width) ∧
      (p.run k).output = k.output ++ p.relocated k.width k.level) ∧
    (∀ style s m role, (Emitter.native style).body s m role = .ok p →
      ∃ d, Native.define style s m role = .ok d ∧ ∀ k' : Sink,
        let head := Native.signature style (m.signature s) ++ text " " ++ opening ""
        d.run k' = (head ++ nest (text (p.standalone k'.width)) ++ closing).run k' ∧
          d.run k' = closing.run ((head ++ nest p).run k') ∧
          ((head ++ nest p).run k').output =
            (head.run k').output ++ p.relocated k'.width (k'.level + 1)) ∧
    ∀ (e : Emitter) s m role, e.brings m role = .ok true → e.body s m role = .ok p →
      ∃ d, e.roleSection s m role = .ok d ∧ ∀ k' : Sink,
        let head := text ("// " ++ e.backend.name ++ " " ++ role.name ++ "\n")
        d.run k' = (head ++ nest (text (p.standalone k'.width))).run k' ∧
          (d.run k').output = (head.run k').output ++ p.relocated k'.width (k'.level + 1) := by
  refine ⟨⟨run_eq_push h p, output_run h p⟩, fun style s m role hbody => ?_,
    fun e s m role hbrings hbody => ?_⟩
  · refine ⟨_, define_of_body hbody, fun k' => ?_⟩
    intro head
    have hhead : (head.run k').atLineStart = true :=
      atLineStart_run_line "\x7b" ((Native.signature style (m.signature s) ++ text " ").run k')
    obtain ⟨hrun, houtput⟩ := run_nest_after hhead p
    exact ⟨congrArg closing.run hrun, rfl, houtput⟩
  · refine ⟨_, roleSection_of_body hbrings hbody, fun k' => ?_⟩
    exact run_nest_after (atLineStart_run_line _ k') p

/-- A body with a block, an empty line and an open end is moved in as its own text, also in the
section of a reserved method. -/
theorem run_eq_push_standalone_open_end :
    let p := block "if (a)" (text "b;\n\nc;\n") ++ text "d;"
    let k : Sink := ⟨2, "ab\n", 1, true⟩
    let m : Method := ⟨⟨0, "poll", ⟨[], by simp⟩, ⟨[], by simp⟩, false, []⟩, .empty,
      .reserved 1 ((BodyTable.empty .native).set .proxy (.emit p)) (.empty .managed)⟩
    k.atLineStart = true ∧ p.run k = k.push "if (a) \x7b\n  b;\n\n  c;\n\x7d\nd;" ∧
      (p.run k).output = "ab\n  if (a) \x7b\n    b;\n\n    c;\n  \x7d\n  d;" ∧
      ∃ d, (Emitter.native .header).roleSection .initial m .proxy = .ok d ∧
        (d.run k).output = "ab\n  // native proxy\n" ++
          "    if (a) \x7b\n      b;\n\n      c;\n    \x7d\n    d;" := by
  intro p k m
  have hstandalone : p.standalone 2 = "if (a) \x7b\n  b;\n\n  c;\n\x7d\nd;" := by decide
  have hrelocated : p.relocated 2 1 =
      "  if (a) \x7b\n    b;\n\n    c;\n  \x7d\n  d;" := by
    rw [relocated, hstandalone]
    decide
  have hdeeper : p.relocated 2 2 =
      "    if (a) \x7b\n      b;\n\n      c;\n    \x7d\n    d;" := by
    rw [relocated, hstandalone]
    decide
  obtain ⟨⟨hrun, houtput⟩, -, hsection⟩ := run_eq_push_standalone p k rfl
  obtain ⟨d, hd, hk⟩ := hsection (.native .header) .initial m .proxy rfl rfl
  refine ⟨rfl, ?_, ?_, d, hd, ?_⟩
  · rw [hrun, hstandalone]
  · rw [houtput, hrelocated]
    decide
  · rw [(hk k).2, hdeeper]
    decide

-- Within a line the document indents nothing, whereas its own text is indented already.
example : (nest (text "b")).run ⟨2, "a", 0, false⟩ ≠
    Sink.push ⟨2, "a", 0, false⟩ ((nest (text "b")).standalone 2) := by decide

end Doc
end Idl
