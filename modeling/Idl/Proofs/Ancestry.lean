import Idl.Proofs.Enrolment
import Idl.Proofs.Parts

/-!
# The chain of an interface in both backends

The reserved method `interfaceChain` tells which interfaces an interface descends from. Its native
body lists them with a comma after each, its managed one with a comma between two. Line by line, the
two bodies list the same interfaces, all of the chain and each in its place.
-/

namespace Idl

/-- The lines of a text. What stands after the last line feed is the last line. -/
def linesOf (text : String) : List String := (text.toList.splitOn '\n').map String.ofList

/-- What stands before a line. -/
def margin (width level : ℕ) : String := String.ofList (List.replicate (level * width) ' ')

/-- The lines that characters make, each behind the indentation of its first. -/
def rows (width : ℕ) (es : List (Char × ℕ)) : List String :=
  (es.splitOnP fun e => e.1 == '\n').map fun line => String.ofList (indented width line)

section Rows

variable {width level : ℕ} {s : String}

theorem linesOf_replay (width : ℕ) (es : List (Char × ℕ)) :
    linesOf (String.ofList (replay width true es)) = rows width es := by
  rw [linesOf, String.toList_ofList, lines_replay, List.map_map]
  rfl

theorem rows_nil (width : ℕ) : rows width [] = [""] := rfl

theorem rows_append_line {line : List (Char × ℕ)} (h : ∀ e ∈ line, e.1 ≠ '\n') (n : ℕ)
    (es : List (Char × ℕ)) :
    rows width (line ++ ('\n', n) :: es) =
      String.ofList (indented width line) :: rows width es := by
  have hline : ∀ e ∈ line, (e.1 == '\n') = false := fun e he => beq_false_of_ne (h e he)
  rw [rows, splitOnP_append_of_forall hline, List.splitOnP_cons_eq_if_modifyHead]
  simp [rows]

/-- A line is indented by its first character, wherever the rest of it comes from. -/
theorem ofList_indented_append (hne : s ≠ "") (es : List (Char × ℕ)) :
    String.ofList (indented width ((Doc.text s).written level ++ es)) =
      margin width level ++ s ++ String.ofList (es.map Prod.fst) := by
  obtain ⟨c, rest, hs⟩ := List.exists_cons_of_ne_nil fun h => hne (String.toList_eq_nil_iff.1 h)
  have hchars : s = String.ofList (c :: rest) := by rw [← hs, String.ofList_toList]
  rw [Doc.written, hs, List.map_cons, List.cons_append, indented, margin, hchars,
    ← String.ofList_append, ← String.ofList_append]
  simp [Function.comp_def]

theorem ne_of_mem_written (hline : '\n' ∉ s.toList) :
    ∀ e ∈ (Doc.text s).written level, e.1 ≠ '\n' := by
  intro e he
  obtain ⟨c, hc, rfl⟩ := List.mem_map.1 he
  exact fun h => hline (h ▸ hc)

theorem rows_line (hne : s ≠ "") (hline : '\n' ∉ s.toList) (es : List (Char × ℕ)) :
    rows width ((Doc.text (s ++ "\n")).written level ++ es) =
      (margin width level ++ s) :: rows width es := by
  have hwritten : (Doc.text (s ++ "\n")).written level ++ es =
      (Doc.text s).written level ++ ('\n', level) :: es := by
    simp [Doc.written]
  have hindented : String.ofList (indented width ((Doc.text s).written level ++ [])) =
      margin width level ++ s ++ "" := ofList_indented_append hne []
  rw [List.append_nil, String.append_empty] at hindented
  rw [hwritten, rows_append_line (ne_of_mem_written hline), hindented]

theorem rows_lines {lines : List String} (h : ∀ s ∈ lines, s ≠ "" ∧ '\n' ∉ s.toList)
    (es : List (Char × ℕ)) :
    rows width ((Doc.concat (lines.map fun s => Doc.text (s ++ "\n"))).written level ++ es) =
      lines.map (margin width level ++ ·) ++ rows width es := by
  induction lines with
  | nil => rfl
  | cons s lines ih =>
    obtain ⟨⟨hne, hline⟩, hlines⟩ := List.forall_mem_cons.1 h
    rw [List.map_cons, List.map_cons, List.cons_append, ← ih hlines, ← rows_line hne hline,
      ← List.append_assoc]
    rfl

/-- Of texts with a separator between two, all but the last are followed by one. -/
theorem written_join_append (separator : String) (front : List String) (last : String) :
    (Doc.join separator ((front ++ [last]).map Doc.text)).written level =
      (Doc.concat (front.map fun s => Doc.text (s ++ separator))).written level ++
        (Doc.text last).written level := by
  rw [Doc.written_join, List.map_map]
  induction front with
  | nil => exact List.intercalate_singleton
  | cons s front ih =>
    have hne : (front ++ [last]).map (Doc.written level ∘ Doc.text) ≠ [] := by simp
    have hfirst : (Doc.text (s ++ separator)).written level =
        (Doc.text s).written level ++ separator.toList.map fun c => (c, level) := by
      simp [Doc.written]
    rw [List.cons_append, List.map_cons, List.intercalate_cons_of_ne_nil hne, ih,
      ← List.append_assoc]
    change _ = (Doc.text (s ++ separator)).written level ++ _ ++ _
    rw [hfirst]
    rfl

end Rows

/-- What a document writes at the start of a line is added to the text, and nothing else changes if
it also ends its last line. -/
theorem Doc.run_eq_of_whole {d : Doc} {k : Sink} (hd : d.Whole) (hk : k.atLineStart = true) :
    ∃ added, d.run k = { k with output := k.output ++ added } ∧
      linesOf added = rows k.width (d.written k.level) := by
  have hstart : (d.run k).atLineStart = true := hd k hk
  refine ⟨String.ofList (replay k.width true (d.written k.level)), ?_, linesOf_replay _ _⟩
  rw [run_eq_write] at hstart ⊢
  change lineStart k.atLineStart _ = true at hstart
  rw [Sink.write, hstart, hk]

namespace FqName

variable {s : List Char} {c : Char}

theorem not_mem_dotsToColons (hc : c ≠ ':') (h : c ∉ s) : c ∉ dotsToColons s := by
  intro hmem
  obtain ⟨d, hd, hcd⟩ := List.mem_flatMap.1 hmem
  split at hcd
  · simp [hc] at hcd
  · exact h (List.mem_singleton.1 hcd ▸ hd)

theorem not_mem_version (hmark : c ≠ 'V') (hbar : c ≠ '_') (h : c ∉ s) : c ∉ version s := by
  rintro (_ | ⟨_, hmem⟩)
  · exact hmark rfl
  · obtain ⟨d, hd, hcd⟩ := List.mem_map.1 hmem
    split at hcd
    · exact hbar hcd.symm
    · exact h (hcd ▸ hd)

theorem not_mem_colonsToDots (hc : c ≠ '.') (h : c ∉ s) : c ∉ colonsToDots s := by
  fun_induction colonsToDots s with
  | case1 rest ih => simp_all
  | case2 d rest _ ih => simp_all
  | case3 => exact h

theorem mem_of_mem_dropColons (h : c ∈ dropColons s) : c ∈ s := by
  fun_induction dropColons s with
  | case1 rest ih => exact .tail _ (.tail _ (ih h))
  | case2 s => exact h

/-- A name has no line feed in either backend that it does not have itself. -/
theorem not_newline_mem {name : String} (h : '\n' ∉ name.toList) :
    '\n' ∉ (native name).toList ∧ '\n' ∉ (managed name).toList := by
  have hparts : ∀ package version' name' : List Char, '\n' ∉ package → '\n' ∉ version' →
      '\n' ∉ name' → '\n' ∉ nativeParts package version' name' := by
    intro package version' name' hpackage hversion hname
    have hpackage' := not_mem_dotsToColons (by decide) hpackage
    have hversion' := not_mem_version (by decide) (by decide) hversion
    unfold nativeParts
    split <;> simp [hpackage', hversion', hname]
  have hnative : '\n' ∉ nativeChars name.toList := by
    unfold nativeChars
    split
    · simp [not_mem_dotsToColons (by decide) h]
    · next package rest hat =>
      rw [Text.eq_append_of_splitAtFirst? hat] at h
      simp only [List.mem_append, not_or] at h
      split
      · next version' name' hcolons =>
        rw [Text.eq_append_of_splitAtFirst? hcolons] at h
        simp only [List.mem_append, not_or] at h
        exact hparts _ _ _ h.1.1 h.2.1.1 h.2.2
      · exact hparts _ _ _ h.1.1 h.2 List.not_mem_nil
  rw [native, managed, String.toList_ofList, String.toList_ofList]
  exact ⟨hnative, not_mem_colonsToDots (by decide) fun hmem => hnative (mem_of_mem_dropColons hmem)⟩

end FqName

namespace Catalogue

/-- The interface and those it descends from. -/
def ancestry (interface : String) (chain : List String) : List String :=
  if chain.isEmpty then [interface] else chain

theorem ancestry_ne_nil (interface : String) (chain : List String) :
    ancestry interface chain ≠ [] := by
  unfold ancestry
  split
  · exact List.cons_ne_nil _ _
  · next h => exact fun hnil => h (hnil ▸ rfl)

variable {s s' : Scope} {interface : String} {chain names : List String} {ms : List Method}
  {width level : ℕ}

theorem rows_nativeChain (h : ∀ name ∈ names, '\n' ∉ (FqName.native name).toList) :
    rows width ((nativeChain names).written level) =
      [margin width level ++ "_hidl_cb(\x7b"] ++
        names.map (fun name =>
          margin width (level + 1) ++ (FqName.native name ++ "::descriptor,")) ++
        [margin width level ++ "\x7d);", margin width level ++ Native.returnVoid, ""] := by
  let entries := names.map fun name => FqName.native name ++ "::descriptor,"
  have hentries : ∀ s ∈ entries, s ≠ "" ∧ '\n' ∉ s.toList := by
    intro s hs
    obtain ⟨name, hname, rfl⟩ := List.mem_map.1 hs
    simp [String.append_eq_empty_iff, h name hname]
  have hwritten : (nativeChain names).written level =
      (Doc.text ("_hidl_cb(\x7b" ++ "\n")).written level ++
        ((Doc.concat (entries.map fun s => Doc.text (s ++ "\n"))).written (level + 1) ++
          ((Doc.text ("\x7d);" ++ "\n")).written level ++
            ((Doc.text (Native.returnVoid ++ "\n")).written level ++ []))) := by
    have htexts : entries.map (fun s => Doc.text (s ++ "\n")) =
        names.map fun name => Doc.text (FqName.native name ++ "::descriptor,\n") := by
      rw [List.map_map]
      exact List.map_congr_left fun name _ => congrArg Doc.text String.append_assoc
    have hreturn : Doc.ofLines [Native.returnVoid] = Doc.text (Native.returnVoid ++ "\n") := by
      decide
    rw [htexts, List.append_nil, ← List.append_assoc, ← List.append_assoc, nativeChain, hreturn]
    rfl
  rw [hwritten, rows_line (by decide) (by decide), rows_lines hentries,
    rows_line (by decide) (by decide), rows_line (by decide) (by decide), rows_nil, List.map_map]
  simp

theorem rows_managedChain {front : List String} {last : String}
    (h : ∀ name ∈ front ++ [last], '\n' ∉ (FqName.managed name).toList) :
    rows width ((managedChain (front ++ [last])).written level) =
      [margin width level ++
        "return new java.util.ArrayList<String>(java.util.Arrays.asList("] ++
        front.map (fun name =>
          margin width (level + 1) ++ (FqName.managed name ++ ".kInterfaceName,")) ++
        [margin width (level + 1) ++ (FqName.managed last ++ ".kInterfaceName") ++ "));", ""] := by
  obtain ⟨hfront, hlast⟩ := List.forall_mem_append.1 h
  let entries := front.map fun name => FqName.managed name ++ ".kInterfaceName,"
  have hentries : ∀ s ∈ entries, s ≠ "" ∧ '\n' ∉ s.toList := by
    intro s hs
    obtain ⟨name, hname, rfl⟩ := List.mem_map.1 hs
    simp [String.append_eq_empty_iff, hfront name hname]
  -- The last entry and the closing brackets stand on one line, which begins inside.
  let ending := (Doc.text (FqName.managed last ++ ".kInterfaceName")).written (level + 1) ++
    (Doc.text "));").written level
  have hending : ∀ e ∈ ending, e.1 ≠ '\n' := by
    refine List.forall_mem_append.2 ⟨ne_of_mem_written ?_, ne_of_mem_written (by decide)⟩
    simp [hlast last (List.mem_singleton_self last)]
  have hindented : String.ofList (indented width ending) =
      margin width (level + 1) ++ (FqName.managed last ++ ".kInterfaceName") ++ "));" := by
    refine (ofList_indented_append ?_ _).trans (congrArg _ rfl)
    simp [String.append_eq_empty_iff]
  have hwritten : (managedChain (front ++ [last])).written level =
      (Doc.text ("return new java.util.ArrayList<String>(java.util.Arrays.asList(" ++
        "\n")).written level ++
        ((Doc.concat (entries.map fun s => Doc.text (s ++ "\n"))).written (level + 1) ++
          (ending ++ ('\n', level) :: [])) := by
    let each := fun name => FqName.managed name ++ ".kInterfaceName"
    have hjoined : (front ++ [last]).map (fun name => Doc.text (each name)) =
        (front.map each ++ [each last]).map Doc.text := by
      simp
    have htexts : (front.map each).map (fun s => Doc.text (s ++ ",\n")) =
        entries.map fun s => Doc.text (s ++ "\n") := by
      rw [List.map_map, List.map_map]
      refine List.map_congr_left fun name _ => congrArg Doc.text ?_
      change each name ++ ("," ++ "\n") = FqName.managed name ++ (".kInterfaceName" ++ ",") ++ "\n"
      simp only [each, String.append_assoc]
    change (Doc.text _).written level ++ (Doc.join ",\n" _).written (level + 1) ++ _ = _
    rw [hjoined, written_join_append, htexts]
    simp only [ending, List.append_assoc]
    rfl
  rw [hwritten, rows_line (by decide) (by decide), rows_lines hentries, rows_append_line hending,
    hindented, rows_nil, List.map_map]
  simp

theorem declares_of_build_eq_ok (h : build s interface chain = .ok (ms, s')) :
    List.Forall₂ (Entry.Declares s) (entries interface chain) ms := by
  obtain ⟨ms', s₁, hms, -, hbuild⟩ := exists_buildFrom_eq s (.refl (entries interface chain))
  rw [build_eq_buildFrom, hbuild] at h
  cases hverdict : (s₁.analyzeAll ms').verdict with
  | error d =>
    rw [hverdict] at h
    cases h
  | ok u =>
    rw [hverdict] at h
    cases h
    exact hms

/-- The method that every catalogue has for the chain, with its two bodies. -/
theorem exists_chain_of_build_eq_ok (h : build s interface chain = .ok (ms, s')) :
    ∃ m, find? ms "interfaceChain" = some m ∧
      (∀ style t, (Emitter.native style).body t m .interface =
        .ok (nativeChain (ancestry interface chain))) ∧
      ∀ t, Emitter.managed.body t m .interface =
        .ok (managedChain (ancestry interface chain)) := by
  obtain ⟨m, rest, hm, -, rfl⟩ := List.forall₂_cons_left_iff.1 (declares_of_build_eq_ok h)
  obtain ⟨native, managed, hnative, hmanaged, hstanding⟩ := hm.standing_eq
  cases hnative
  cases hmanaged
  have hnativeBody : (m.bodies .native).get? .interface =
      some (.emit (nativeChain (ancestry interface chain))) := by
    unfold Method.bodies Method.table
    rw [hstanding]
    rfl
  have hmanagedBody : (m.bodies .managed).get? .interface =
      some (.emit (managedChain (ancestry interface chain))) := by
    unfold Method.bodies Method.table
    rw [hstanding]
    rfl
  refine ⟨m, List.find?_cons_of_pos (by rw [hm.name_eq]; rfl), fun style t => ?_, fun t => ?_⟩
  · rw [Emitter.body_eq_ok, Emitter.backend, hnativeBody]
    rfl
  · rw [Emitter.body_eq_ok, Emitter.backend, hmanagedBody]
    rfl

/-- The catalogue of an interface is built wherever the builtin names mean the builtin types. In any
catalogue, the bodies of `interfaceChain` add these lines to a sink that is at the start of one. -/
theorem bodies_list_ancestry (hchain : ∀ name ∈ ancestry interface chain, '\n' ∉ name.toList) :
    (∀ s, Standard s → ∃ ms s', build s interface chain = .ok (ms, s')) ∧
      ∀ s ms s', build s interface chain = .ok (ms, s') →
        ∃ m native managed, find? ms "interfaceChain" = some m ∧
          (∀ style t, (Emitter.native style).body t m .interface = .ok native) ∧
          (∀ t, Emitter.managed.body t m .interface = .ok managed) ∧
          ∀ k : Sink, k.atLineStart = true → ∃ nativeText managedText front last,
            native.run k = { k with output := k.output ++ nativeText } ∧
            managed.run k = { k with output := k.output ++ managedText } ∧
            linesOf nativeText = [k.indentation ++ "_hidl_cb(\x7b"] ++
              (ancestry interface chain).map (fun name =>
                k.enter.indentation ++ (FqName.native name ++ "::descriptor,")) ++
              [k.indentation ++ "\x7d);",
                k.indentation ++ "return ::android::hardware::Void();", ""] ∧
            ancestry interface chain = front ++ [last] ∧
            linesOf managedText =
              [k.indentation ++
                "return new java.util.ArrayList<String>(java.util.Arrays.asList("] ++
              front.map (fun name =>
                k.enter.indentation ++ (FqName.managed name ++ ".kInterfaceName,")) ++
              [k.enter.indentation ++ (FqName.managed last ++ ".kInterfaceName") ++ "));", ""] := by
  refine ⟨fun s hs => ?_, fun s ms s' hbuild => ?_⟩
  · obtain ⟨ms, s', hbuild, -⟩ := exists_build_eq_ok hs interface chain
    exact ⟨ms, s', hbuild⟩
  · obtain ⟨m, hfind, hnative, hmanaged⟩ := exists_chain_of_build_eq_ok hbuild
    refine ⟨m, _, _, hfind, hnative, hmanaged, fun k hk => ?_⟩
    have hne := ancestry_ne_nil interface chain
    have hlast := (List.dropLast_concat_getLast hne).symm
    have hnativeWhole := whole_nativeChain (ancestry interface chain)
    have hmanagedWhole := whole_managedChain (ancestry interface chain)
    obtain ⟨nativeText, hrun, hlines⟩ := Doc.run_eq_of_whole hnativeWhole hk
    obtain ⟨managedText, hrun', hlines'⟩ := Doc.run_eq_of_whole hmanagedWhole hk
    have hnames : ∀ name ∈ ancestry interface chain, '\n' ∉ (FqName.native name).toList :=
      fun name hname => (FqName.not_newline_mem (hchain name hname)).1
    have hnames' : ∀ name ∈ ancestry interface chain, '\n' ∉ (FqName.managed name).toList :=
      fun name hname => (FqName.not_newline_mem (hchain name hname)).2
    refine ⟨nativeText, managedText, _, _, hrun, hrun', ?_, hlast, ?_⟩
    · rw [hlines, rows_nativeChain hnames]
      rfl
    · rw [hlast] at hlines' hnames'
      rw [hlines', rows_managedChain hnames']
      rfl

/-- An interface and its parent, inside a section. -/
theorem bodies_list_two_interfaces :
    let chain := ["a.b@1.0::IFoo", "a.base@2.1::IBase"]
    let k : Sink := ⟨2, "x\n", 1, true⟩
    (∀ name ∈ ancestry "a.b@1.0::IFoo" chain, '\n' ∉ name.toList) ∧ k.atLineStart = true ∧
      ∃ ms s' m native managed nativeText managedText,
        build .initial "a.b@1.0::IFoo" chain = .ok (ms, s') ∧ find? ms "interfaceChain" = some m ∧
        (Emitter.native .header).body s' m .interface = .ok native ∧
        Emitter.managed.body s' m .interface = .ok managed ∧
        (native.run k).output = "x\n" ++ nativeText ∧
        linesOf nativeText = ["  _hidl_cb(\x7b", "    ::a::b::V1_0::IFoo::descriptor,",
          "    ::a::base::V2_1::IBase::descriptor,", "  \x7d);",
          "  return ::android::hardware::Void();", ""] ∧
        (managed.run k).output = "x\n" ++ managedText ∧
        linesOf managedText =
          ["  return new java.util.ArrayList<String>(java.util.Arrays.asList(",
            "    a.b.V1_0.IFoo.kInterfaceName,",
            "    a.base.V2_1.IBase.kInterfaceName));", ""] := by
  intro chain k
  have hchain : ∀ name ∈ ancestry "a.b@1.0::IFoo" chain, '\n' ∉ name.toList := by decide
  obtain ⟨hbuilt, hbodies⟩ := bodies_list_ancestry hchain
  obtain ⟨ms, s', hbuild⟩ := hbuilt .initial standard_initial
  obtain ⟨m, native, managed, hfind, hnative, hmanaged, hlines⟩ := hbodies _ ms s' hbuild
  obtain ⟨nativeText, managedText, front, last, hrun, hrun', htext, hlast, htext'⟩ := hlines k rfl
  change ["a.b@1.0::IFoo"] ++ ["a.base@2.1::IBase"] = front ++ [last] at hlast
  obtain ⟨rfl, hsingle⟩ := List.append_inj' hlast rfl
  obtain rfl := List.singleton_inj.1 hsingle
  refine ⟨hchain, rfl, ms, s', m, native, managed, nativeText, managedText, hbuild, hfind,
    hnative _ s', hmanaged s', congrArg Sink.output hrun, htext.trans ?_,
    congrArg Sink.output hrun', htext'.trans ?_⟩
  · decide
  · decide

end Catalogue
end Idl
