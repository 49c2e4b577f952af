import Idl.Proofs.EvaluationOrder
import Idl.Proofs.Spelling
import Idl.Ty.Expr
import Mathlib.Data.List.DropRight

/-!
# Type expressions have one reading

Every text is a name inside some vectors, with blank characters around the name and around each
vector. There is one such reading of a text, the one that reading it gives. What is read is named
canonically, without any of the blanks, and evaluates as the name inside is bound at the time.
-/

namespace Idl

namespace Text

variable {s e : List Char}

/-- The characters with the Unicode property `White_Space`, by their code points. -/
def IsWhite (c : Char) : Prop :=
  0x09 ≤ c.toNat ∧ c.toNat ≤ 0x0D ∨ c.toNat = 0x20 ∨ c.toNat = 0x85 ∨ c.toNat = 0xA0 ∨
    c.toNat = 0x1680 ∨ 0x2000 ≤ c.toNat ∧ c.toNat ≤ 0x200A ∨ c.toNat = 0x2028 ∨
    c.toNat = 0x2029 ∨ c.toNat = 0x202F ∨ c.toNat = 0x205F ∨ c.toNat = 0x3000

theorem isBlank_iff {c : Char} : isBlank c = true ↔ IsWhite c := by
  simp only [isBlank, Ranges.contains, blanks, List.any_cons, List.any_nil, Bool.or_eq_true,
    Bool.or_false, Bool.and_eq_true, decide_eq_true_eq, IsWhite]
  omega

instance (c : Char) : Decidable (IsWhite c) := decidable_of_iff _ isBlank_iff

/-- No blank character stands at either end. -/
structure Trimmed (s : List Char) : Prop where
  head : ∀ c ∈ s.head?, ¬ IsWhite c
  last : ∀ c ∈ s.getLast?, ¬ IsWhite c

/-- The text `e` is `s` with blank characters around it. -/
def Padded (s e : List Char) : Prop :=
  ∃ lead trail, e = lead ++ s ++ trail ∧ (∀ c ∈ lead, IsWhite c) ∧ ∀ c ∈ trail, IsWhite c

theorem Padded.refl (s : List Char) : Padded s s := ⟨[], [], by simp, nofun, nofun⟩

theorem head_dropWhile (s : List Char) : ∀ c ∈ (s.dropWhile isBlank).head?, ¬ IsWhite c := by
  intro c hc
  have h := List.head?_dropWhile_not isBlank s
  rw [hc] at h
  rw [← isBlank_iff]
  simpa using h

theorem trimmed_trim (s : List Char) : Trimmed (trim s) := by
  have hlast (t : List Char) : ∀ c ∈ (trimEnd t).getLast?, ¬ IsWhite c := by
    intro c hc
    rw [trimEnd, List.getLast?_reverse] at hc
    exact head_dropWhile t.reverse c hc
  refine ⟨fun c hc => ?_, hlast _⟩
  obtain ⟨trail, heq, -⟩ := exists_eq_append_trimEnd (s.dropWhile isBlank)
  apply head_dropWhile s
  rw [heq, List.head?_append, ← trim, Option.mem_def.1 hc]
  rfl

theorem dropWhile_eq_self (h : ∀ c ∈ s.head?, ¬ IsWhite c) : s.dropWhile isBlank = s := by
  cases s with
  | nil => rfl
  | cons c s => exact List.dropWhile_cons_of_neg (isBlank_iff.not.2 (h c rfl))

theorem trim_of_padded (hs : Trimmed s) (h : Padded s e) : trim e = s := by
  obtain ⟨lead, trail, rfl, hlead, htrail⟩ := h
  have hlead' : ∀ d ∈ lead, isBlank d := fun d hd => isBlank_iff.2 (hlead d hd)
  cases s with
  | nil =>
    rw [trim_eq_nil_iff, isBlankText, List.append_nil, List.all_append, Bool.and_eq_true]
    exact ⟨List.all_eq_true.2 hlead', List.all_eq_true.2 fun d hd => isBlank_iff.2 (htrail d hd)⟩
  | cons c s =>
    have hhead : (c :: s ++ trail).dropWhile isBlank = c :: s ++ trail := dropWhile_eq_self hs.head
    have hreverse : (c :: s).reverse.dropWhile isBlank = (c :: s).reverse := by
      apply dropWhile_eq_self
      rw [List.head?_reverse]
      exact hs.last
    have htrail' : ∀ d ∈ trail.reverse, isBlank d :=
      fun d hd => isBlank_iff.2 (htrail d (List.mem_reverse.1 hd))
    rw [trim, List.append_assoc, List.dropWhile_append_of_pos hlead', hhead, trimEnd,
      List.reverse_append, List.dropWhile_append_of_pos htrail', hreverse, List.reverse_reverse]

theorem padded_trim (e : List Char) : Padded (trim e) e := by
  obtain ⟨lead, trail, heq, hlead, htrail⟩ := exists_eq_append_trim e
  exact ⟨lead, trail, heq, fun c hc => isBlank_iff.1 (hlead c hc),
    fun c hc => isBlank_iff.1 (htrail c hc)⟩

/-- A text is not blank if some character in it is not white. -/
theorem not_isBlankText_iff_exists : ¬ isBlankText s ↔ ∃ c ∈ s, ¬ IsWhite c := by
  simp only [isBlankText, List.all_eq_true, isBlank_iff, not_forall, exists_prop]

end Text

namespace TypeExpr

open Text (Trimmed Padded)

/-- A name that reads as itself: it is not a vector, and nothing is trimmed from it. -/
structure IsName (n : List Char) : Prop where
  trimmed : Trimmed n
  not_vec : ∀ x, n ≠ ['v', 'e', 'c', '<'] ++ x ++ ['>']

/-- The text wraps the name `n` in this many vectors, with blank characters around the name and
around each vector. -/
inductive Wraps (n : List Char) : Nat → List Char → Prop
  | name {e : List Char} : Padded n e → Wraps n 0 e
  | vec {depth : Nat} {inner e : List Char} :
    Wraps n depth inner → Padded (['v', 'e', 'c', '<'] ++ inner ++ ['>']) e →
    Wraps n (depth + 1) e

variable {n e inner : List Char} {depth : Nat}

theorem read_of_insideVec?_eq_some (h : insideVec? (Text.trim e) = some inner) :
    read e = vec (read inner) := by
  rw [read]
  split
  · next heq =>
    rw [h] at heq
    rw [Option.some.inj heq]
  · next heq =>
    rw [h] at heq
    cases heq

theorem read_of_insideVec?_eq_none (h : insideVec? (Text.trim e) = none) :
    read e = name (String.ofList (Text.trim e)) := by
  rw [read]
  split
  · next heq =>
    rw [h] at heq
    cases heq
  · rfl

theorem IsName.insideVec?_eq_none (h : IsName n) : insideVec? n = none := by
  cases hvec : insideVec? n with
  | none => rfl
  | some inner => exact absurd (eq_of_insideVec? hvec) (h.not_vec inner)

theorem trimmed_vec (inner : List Char) : Trimmed (['v', 'e', 'c', '<'] ++ inner ++ ['>']) := by
  constructor
  · intro c hc
    obtain rfl := Option.some.inj hc
    decide
  · intro c hc
    rw [List.getLast?_concat] at hc
    obtain rfl := Option.some.inj hc
    decide

theorem read_of_wraps (hn : IsName n) (h : Wraps n depth e) :
    (read e).depth = depth ∧ (read e).coreName = String.ofList n := by
  induction h with
  | name h =>
    have htrim := Text.trim_of_padded hn.trimmed h
    rw [read_of_insideVec?_eq_none (htrim ▸ hn.insideVec?_eq_none), htrim]
    exact ⟨rfl, rfl⟩
  | vec _ h ih =>
    have htrim := Text.trim_of_padded (trimmed_vec _) h
    rw [read_of_insideVec?_eq_some (insideVec?_eq_some_iff.2 htrim)]
    exact ⟨congrArg (· + 1) ih.1, ih.2⟩

theorem exists_wraps (e : List Char) : ∃ depth n, IsName n ∧ Wraps n depth e := by
  induction e using read.induct with
  | case1 e inner hvec ih =>
    obtain ⟨depth, n, hn, hinner⟩ := ih
    refine ⟨depth + 1, n, hn, .vec hinner ?_⟩
    rw [← eq_of_insideVec? hvec]
    exact Text.padded_trim e
  | case2 e hvec =>
    refine ⟨0, Text.trim e, ⟨Text.trimmed_trim e, fun x hx => ?_⟩, .name (Text.padded_trim e)⟩
    rw [insideVec?_eq_some_iff.2 hx] at hvec
    cases hvec

theorem vecName_eq_times (depth : Nat) (n : String) :
    vecName depth n = times depth "vec<" ++ n ++ times depth ">" := by
  induction depth with
  | zero => simp [vecName, times]
  | succ depth ih => rw [vecName, ih, append_times_append]

/-- The canonical text is one that wraps the name. -/
theorem wraps_vecName (depth : Nat) (n : String) :
    Wraps n.toList depth (vecName depth n).toList := by
  induction depth with
  | zero => exact .name (Padded.refl _)
  | succ depth ih =>
    refine .vec ih ?_
    rw [vecName, String.toList_append, String.toList_append]
    exact Padded.refl _

/-- A text has one reading as a name inside vectors, and that is what it is read as: so many vectors
around a new reference to the name. The type goes by its canonical name, which is read as the same
again. It evaluates if and only if the name is bound to a type that does. -/
theorem existsUnique_reading (e : String) :
    (∃! p : Nat × String, IsName p.2.toList ∧ Wraps p.2.toList p.1 e.toList) ∧
      ∀ (depth : Nat) (n : String), IsName n.toList → Wraps n.toList depth e.toList →
        ∀ (s : Scope) (location : Location),
          let r : Ref := ⟨s.fresh, n, location⟩
          let t := (s.instantiate (read e.toList) location).1
          t.depth = depth ∧ t.core = .ref r ∧
            (s.instantiate (read e.toList) location).2.target? r = none ∧
            t.name = times depth "vec<" ++ n ++ times depth ">" ∧
            (∀ (s' : Scope) (location' : Location),
              (s'.instantiate (read t.name.toList) location').1.name = t.name) ∧
            ∀ later : Scope, later.target? r = none → ((later.evaluate t).1 = .ok () ↔
              ∃ u, later.lookup? n = some u ∧ (later.evaluate u).1 = .ok ()) := by
  refine ⟨?_, fun depth n hn hwraps s location => ?_⟩
  · obtain ⟨depth, n, hn, hwraps⟩ := exists_wraps e.toList
    refine ⟨(depth, String.ofList n), ⟨?_, ?_⟩, fun p hp => ?_⟩
    · rwa [String.toList_ofList]
    · rwa [String.toList_ofList]
    · obtain ⟨hdepth, hname⟩ := read_of_wraps hn hwraps
      obtain ⟨hdepth', hname'⟩ := read_of_wraps hp.1 hp.2
      rw [String.ofList_toList] at hname'
      exact Prod.ext (hdepth'.symm.trans hdepth) (hname'.symm.trans hname)
  · intro r t
    have hread : ∀ (s' : Scope) (location' : Location) (e' : List Char), Wraps n.toList depth e' →
        (s'.instantiate (read e') location').1.depth = depth ∧
          (s'.instantiate (read e') location').1.core = .ref ⟨s'.fresh, n, location'⟩ := by
      intro s' location' e' he'
      obtain ⟨hdepth, hname⟩ := read_of_wraps hn he'
      rw [String.ofList_toList] at hname
      refine ⟨(depth_withRef _ _).trans hdepth, (core_withRef _ _).trans ?_⟩
      rw [hname]
    have hcanonical : ∀ (s' : Scope) (location' : Location) (e' : List Char),
        Wraps n.toList depth e' →
          (s'.instantiate (read e') location').1.name = vecName depth n := by
      intro s' location' e' he'
      obtain ⟨hdepth, hcore⟩ := hread s' location' e' he'
      rw [Ty.name_eq_vecName, hdepth, hcore]
      rfl
    obtain ⟨hdepth, hcore⟩ := hread s location e.toList hwraps
    have hname := hcanonical s location e.toList hwraps
    refine ⟨hdepth, hcore, s.target?_refer n location, hname.trans (vecName_eq_times depth n),
      fun s' location' => ?_, fun later => Scope.evaluate_eq_ok_iff_of_core hcore⟩
    rw [hname]
    exact hcanonical s' location' _ (wraps_vecName depth n)

/-- Brackets that do not match leave a name, whatever is in it. -/
theorem reading_of_stray_brackets :
    let e := " vec<\u3000vec<vec<> >\t"
    IsName "vec<".toList ∧ Wraps "vec<".toList 2 e.toList ∧
      (Scope.initial.instantiate (read e.toList) .empty).1.name = "vec<vec<vec<>>" := by
  intro e
  have hname : IsName "vec<".toList := by
    refine ⟨⟨fun c hc => ?_, fun c hc => ?_⟩, fun x hx => ?_⟩
    · obtain rfl : 'v' = c := Option.some.inj hc
      decide
    · obtain rfl : '<' = c := Option.some.inj hc
      decide
    · have hlength := congrArg List.length hx
      simp at hlength
  have hinner : Wraps "vec<".toList 1 "\u3000vec<vec<> ".toList := by
    refine .vec (.name (Padded.refl _)) ?_
    exact ⟨['\u3000'], [' '], by decide, List.forall_mem_singleton.2 (by decide),
      List.forall_mem_singleton.2 (by decide)⟩
  have hwraps : Wraps "vec<".toList 2 e.toList := by
    refine .vec hinner ?_
    exact ⟨[' '], ['\t'], by decide, List.forall_mem_singleton.2 (by decide),
      List.forall_mem_singleton.2 (by decide)⟩
  obtain ⟨-, hread⟩ := existsUnique_reading e
  obtain ⟨-, -, -, hcanonical, -⟩ := hread 2 "vec<" hname hwraps .initial .empty
  exact ⟨hname, hwraps, hcanonical⟩

end TypeExpr
end Idl
