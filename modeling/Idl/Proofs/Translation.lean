import Idl.FqName
import Mathlib.Data.List.Basic

/-!
# Interface names can be translated back

An interface that is named by a package, a version and a name of its own has the same parts in its
native and in its managed name, with the version as one part. The parts of either name give back the
interface, so different interfaces have different names.
-/

namespace Idl

namespace FqName

/-- A part of a package or a name: not empty, and without the characters that divide names. -/
structure IsPart (s : String) : Prop where
  ne_empty : s ≠ ""
  no_dot : '.' ∉ s.toList
  no_colon : ':' ∉ s.toList
  no_at : '@' ∉ s.toList

structure IsNumber (s : String) : Prop where
  ne_empty : s ≠ ""
  digits : ∀ c ∈ s.toList, c.isDigit

instance (s : String) : Decidable (IsPart s) :=
  decidable_of_iff (s ≠ "" ∧ '.' ∉ s.toList ∧ ':' ∉ s.toList ∧ '@' ∉ s.toList)
    ⟨fun ⟨hne, hdot, hcolon, hat⟩ => ⟨hne, hdot, hcolon, hat⟩,
      fun ⟨hne, hdot, hcolon, hat⟩ => ⟨hne, hdot, hcolon, hat⟩⟩

instance (s : String) : Decidable (IsNumber s) :=
  decidable_of_iff (s ≠ "" ∧ s.toList.all Char.isDigit)
    ⟨fun ⟨hne, hdigits⟩ => ⟨hne, List.all_eq_true.1 hdigits⟩,
      fun ⟨hne, hdigits⟩ => ⟨hne, List.all_eq_true.2 hdigits⟩⟩

theorem IsNumber.not_mem {s : String} (h : IsNumber s) {c : Char} (hc : c.isDigit = false) :
    c ∉ s.toList := by
  intro hmem
  rw [h.digits c hmem] at hc
  cases hc

/-- What the name of an interface is made of. -/
structure Interface where
  package : List String
  major : String
  minor : String
  name : String
  package_ne_nil : package ≠ []
  isPart_of_mem : ∀ part ∈ package, IsPart part
  isNumber_major : IsNumber major
  isNumber_minor : IsNumber minor
  isPart_name : IsPart name

namespace Interface

/-- The name that is translated. -/
def text (i : Interface) : String :=
  ".".intercalate i.package ++ "@" ++ i.major ++ "." ++ i.minor ++ "::" ++ i.name

/-- The version as one part. -/
def version (i : Interface) : String := "V" ++ i.major ++ "_" ++ i.minor

def parts (i : Interface) : List String := i.package ++ [i.version, i.name]

end Interface

/-- The name that has been translated to these parts. -/
def ofParts (parts : List (List Char)) : List Char :=
  match parts.reverse with
  | name :: version :: package =>
    ['.'].intercalate package.reverse ++ ['@'] ++
      (version.drop 1).map (fun c => if c = '_' then '.' else c) ++ [':', ':'] ++ name
  | _ => []

def ofManaged (s : String) : String := String.ofList (ofParts (s.toList.splitOn '.'))

def ofNative (s : String) : String :=
  ofManaged (String.ofList (colonsToDots (dropColons s.toList)))

variable {parts : List (List Char)} {part : List Char}

theorem intercalate_append (separator : List Char) {ps qs : List (List Char)} (hps : ps ≠ [])
    (hqs : qs ≠ []) : separator.intercalate (ps ++ qs) =
      separator.intercalate ps ++ separator ++ separator.intercalate qs := by
  induction ps with
  | nil => exact absurd rfl hps
  | cons p ps ih =>
    cases ps with
    | nil => rw [List.singleton_append, List.intercalate_cons_of_ne_nil hqs,
        List.intercalate_singleton]
    | cons p' ps =>
      rw [List.cons_append, List.intercalate_cons_of_ne_nil (by simp), ih (by simp),
        List.intercalate_cons_cons]
      simp only [List.append_assoc]

theorem map_ite_of_not_mem {c d : Char} {s : List Char} (h : c ∉ s) :
    s.map (fun x => if x = c then d else x) = s := by
  refine (List.map_congr_left fun x hx => if_neg ?_).trans (List.map_id s)
  rintro rfl
  exact h hx

theorem not_mem_intercalate {c : Char} {separator : List Char} (hseparator : c ∉ separator)
    (h : ∀ part ∈ parts, c ∉ part) : c ∉ separator.intercalate parts := by
  rw [Text.mem_intercalate_iff hseparator]
  exact fun ⟨part, hpart, hc⟩ => h part hpart hc

theorem dotsToColons_of_not_mem (h : '.' ∉ part) : dotsToColons part = part := by
  induction part with
  | nil => rfl
  | cons c part ih =>
    rw [List.mem_cons, not_or] at h
    rw [dotsToColons, List.flatMap_cons, if_neg (Ne.symm h.1), ← dotsToColons, ih h.2]
    rfl

theorem dotsToColons_intercalate (h : ∀ part ∈ parts, '.' ∉ part) :
    dotsToColons (['.'].intercalate parts) = [':', ':'].intercalate parts := by
  induction parts with
  | nil => rfl
  | cons part rest ih =>
    have hpart := dotsToColons_of_not_mem (h part List.mem_cons_self)
    cases rest with
    | nil => rw [List.intercalate_singleton, List.intercalate_singleton, hpart]
    | cons next rest =>
      have hrest := ih fun p hp => h p (List.mem_cons_of_mem part hp)
      rw [List.intercalate_cons_cons, List.intercalate_cons_cons, ← hrest]
      unfold dotsToColons at hpart ⊢
      rw [List.flatMap_append, List.flatMap_append, hpart]
      rfl

theorem colonsToDots_cons {c : Char} (h : c ≠ ':') (s : List Char) :
    colonsToDots (c :: s) = c :: colonsToDots s := by
  rw [colonsToDots]
  exact fun _ hc => absurd hc h

theorem colonsToDots_append (h : ':' ∉ part) (s : List Char) :
    colonsToDots (part ++ s) = part ++ colonsToDots s := by
  induction part with
  | nil => rfl
  | cons c part ih =>
    rw [List.mem_cons, not_or] at h
    rw [List.cons_append, colonsToDots_cons (Ne.symm h.1), ih h.2, List.cons_append]

theorem colonsToDots_intercalate (h : ∀ part ∈ parts, ':' ∉ part) :
    colonsToDots ([':', ':'].intercalate parts) = ['.'].intercalate parts := by
  induction parts with
  | nil => rfl
  | cons part rest ih =>
    have hpart := colonsToDots_append (h part List.mem_cons_self)
    cases rest with
    | nil => simpa [colonsToDots] using hpart []
    | cons next rest =>
      have hrest := ih fun p hp => h p (List.mem_cons_of_mem part hp)
      rw [List.intercalate_cons_cons, List.intercalate_cons_cons, List.append_assoc, hpart, ← hrest,
        List.append_assoc]
      rfl

/-- The two colons at the beginning go, and a dot comes for each two that stand between parts. -/
theorem managedChars_of_parts {s : List Char}
    (hnative : nativeChars s = [':', ':'] ++ [':', ':'].intercalate parts)
    (h : ∀ part ∈ parts, part ≠ [] ∧ ':' ∉ part) :
    managedChars s = ['.'].intercalate parts := by
  have hkeep : dropColons ([':', ':'].intercalate parts) = [':', ':'].intercalate parts := by
    cases parts with
    | nil => rfl
    | cons part rest =>
      obtain ⟨hne, hcolon⟩ := h part List.mem_cons_self
      obtain ⟨c, part, rfl⟩ := List.exists_cons_of_ne_nil hne
      have hc : c ≠ ':' := fun hc => hcolon (hc ▸ List.mem_cons_self)
      cases rest <;> simp [dropColons, hc]
  rw [managedChars, hnative]
  change colonsToDots (dropColons ([':', ':'].intercalate parts)) = _
  rw [hkeep, colonsToDots_intercalate fun part hpart => (h part hpart).2]

namespace Interface

variable (i : Interface)

theorem toList_version : i.version.toList = 'V' :: (i.major.toList ++ '_' :: i.minor.toList) := by
  simp [version]

/-- The version is one of the parts: no character in it divides names. -/
theorem plain_of_mem_parts {part : List Char} (h : part ∈ i.parts.map String.toList) :
    part ≠ [] ∧ '.' ∉ part ∧ ':' ∉ part := by
  obtain ⟨part, hmem, rfl⟩ := List.mem_map.1 h
  have hplain : ∀ {s : String}, IsPart s → s.toList ≠ [] ∧ '.' ∉ s.toList ∧ ':' ∉ s.toList :=
    fun hs => ⟨String.toList_eq_nil_iff.not.2 hs.ne_empty, hs.no_dot, hs.no_colon⟩
  rcases List.mem_append.1 hmem with hpackage | hrest
  · exact hplain (i.isPart_of_mem part hpackage)
  · simp only [List.mem_cons, List.not_mem_nil, or_false] at hrest
    rcases hrest with rfl | rfl
    · have hmajor (c : Char) (hc : c.isDigit = false) := i.isNumber_major.not_mem hc
      have hminor (c : Char) (hc : c.isDigit = false) := i.isNumber_minor.not_mem hc
      rw [toList_version]
      simp [hmajor, hminor]
    · exact hplain i.isPart_name

theorem toList_text : i.text.toList =
    ['.'].intercalate (i.package.map String.toList) ++ ['@'] ++
      (i.major.toList ++ '.' :: i.minor.toList ++ [':', ':'] ++ i.name.toList) := by
  simp [text, String.toList_intercalate]

theorem nativeChars_text : nativeChars i.text.toList =
    [':', ':'] ++ [':', ':'].intercalate (i.parts.map String.toList) := by
  have hat : '@' ∉ ['.'].intercalate (i.package.map String.toList) := by
    refine not_mem_intercalate (by decide) fun part hpart => ?_
    obtain ⟨part, hmem, rfl⟩ := List.mem_map.1 hpart
    exact (i.isPart_of_mem part hmem).no_at
  have hcolon : ':' ∉ i.major.toList ++ '.' :: i.minor.toList := by
    have hmajor : ':' ∉ i.major.toList := i.isNumber_major.not_mem (by decide)
    have hminor : ':' ∉ i.minor.toList := i.isNumber_minor.not_mem (by decide)
    simp [hmajor, hminor]
  have hdots : dotsToColons (['.'].intercalate (i.package.map String.toList)) =
      [':', ':'].intercalate (i.package.map String.toList) := by
    refine dotsToColons_intercalate fun part hpart => ?_
    obtain ⟨part, hmem, rfl⟩ := List.mem_map.1 hpart
    exact (i.isPart_of_mem part hmem).no_dot
  have hversion : FqName.version (i.major.toList ++ '.' :: i.minor.toList) = i.version.toList := by
    have hmajor : '.' ∉ i.major.toList := i.isNumber_major.not_mem (by decide)
    have hminor : '.' ∉ i.minor.toList := i.isNumber_minor.not_mem (by decide)
    rw [FqName.version, List.map_append, List.map_cons, map_ite_of_not_mem hmajor,
      map_ite_of_not_mem hminor, toList_version]
    rfl
  have hname : i.name.toList ≠ [] := by
    rw [ne_eq, String.toList_eq_nil_iff]
    exact i.isPart_name.ne_empty
  rw [toList_text, nativeChars, Text.splitAtFirst?_append hat]
  simp only [Text.splitAtFirst?_append hcolon, nativeParts, hdots, hversion, hname, if_false]
  rw [parts, List.map_append, intercalate_append _ (by simpa using i.package_ne_nil) (by simp)]
  simp [List.intercalate_cons_cons]

theorem managedChars_text : managedChars i.text.toList =
    ['.'].intercalate (i.parts.map String.toList) := by
  refine managedChars_of_parts i.nativeChars_text fun part hpart => ?_
  obtain ⟨hne, -, hcolon⟩ := i.plain_of_mem_parts hpart
  exact ⟨hne, hcolon⟩

theorem native_text : native i.text = "::" ++ "::".intercalate i.parts := by
  rw [native, nativeChars_text, ← String.toList_inj, String.toList_ofList]
  simp [String.toList_intercalate]

theorem managed_text : managed i.text = ".".intercalate i.parts := by
  rw [managed, managedChars_text, ← String.toList_inj, String.toList_ofList]
  simp [String.toList_intercalate]

theorem ofParts_parts : ofParts (i.parts.map String.toList) = i.text.toList := by
  have hmajor : '_' ∉ i.major.toList := i.isNumber_major.not_mem (by decide)
  have hminor : '_' ∉ i.minor.toList := i.isNumber_minor.not_mem (by decide)
  have hversion : (i.version.toList.drop 1).map (fun c => if c = '_' then '.' else c) =
      i.major.toList ++ '.' :: i.minor.toList := by
    rw [toList_version, List.drop_one, List.tail_cons, List.map_append, List.map_cons,
      map_ite_of_not_mem hmajor, map_ite_of_not_mem hminor]
    rfl
  have hreverse : (i.parts.map String.toList).reverse =
      i.name.toList :: i.version.toList :: (i.package.map String.toList).reverse := by
    simp [parts]
  rw [ofParts, hreverse, toList_text]
  simp only [hversion, List.reverse_reverse, List.append_assoc]

/-- The parts of the managed name stand between its dots. -/
theorem splitOn_managedChars :
    (managedChars i.text.toList).splitOn '.' = i.parts.map String.toList := by
  rw [managedChars_text]
  exact List.splitOn_intercalate '.' (fun part hpart => (i.plain_of_mem_parts hpart).2.1)
    (by simp [parts])

theorem ofManaged_managed : ofManaged (managed i.text) = i.text := by
  rw [ofManaged, managed, String.toList_ofList, splitOn_managedChars, ofParts_parts,
    String.ofList_toList]

theorem ofNative_native : ofNative (native i.text) = i.text := by
  have hmanaged : ofNative (native i.text) = ofManaged (managed i.text) := by
    rw [ofNative, native, String.toList_ofList]
    rfl
  rw [hmanaged, ofManaged_managed]

variable {i} {j : Interface}

/-- The version is the last part but one, and its numbers have no underscore in them. -/
theorem eq_of_parts_eq (h : i.parts = j.parts) : i = j := by
  obtain ⟨hpackage, hlast⟩ := List.append_inj' h rfl
  obtain ⟨hversion, hname⟩ : i.version = j.version ∧ i.name = j.name := by simpa using hlast
  have hnumbers : i.major.toList ++ ['_'] ++ i.minor.toList =
      j.major.toList ++ ['_'] ++ j.minor.toList := by
    simpa [toList_version] using congrArg String.toList hversion
  have hsplit (k : Interface) :
      Text.splitAtFirst? ['_'] (k.major.toList ++ ['_'] ++ k.minor.toList) =
        some (k.major.toList, k.minor.toList) :=
    Text.splitAtFirst?_append (k.isNumber_major.not_mem (by decide)) _
  have hpair := (hsplit i).symm.trans ((congrArg _ hnumbers).trans (hsplit j))
  obtain ⟨hmajor, hminor⟩ := Prod.mk.inj (Option.some.inj hpair)
  cases i
  cases j
  cases hpackage
  cases hname
  cases String.toList_inj.1 hmajor
  cases String.toList_inj.1 hminor
  rfl

theorem text_injective (h : i.text = j.text) : i = j := by
  refine eq_of_parts_eq (List.map_injective_iff.2 (fun _ _ => String.toList_injective) ?_)
  rw [← i.splitOn_managedChars, h, j.splitOn_managedChars]

/-- Both names of an interface consist of its parts and can be translated back to its own.
Interfaces with the same native or the same managed name are the same. -/
theorem translates_injectively (i j : Interface) :
    native i.text = "::" ++ "::".intercalate i.parts ∧
    managed i.text = ".".intercalate i.parts ∧
    ofNative (native i.text) = i.text ∧ ofManaged (managed i.text) = i.text ∧
    (native i.text = native j.text ↔ i = j) ∧ (managed i.text = managed j.text ↔ i = j) := by
  refine ⟨i.native_text, i.managed_text, i.ofNative_native, i.ofManaged_managed,
    ⟨fun h => text_injective ?_, ?_⟩, ⟨fun h => text_injective ?_, ?_⟩⟩
  · rw [← i.ofNative_native, h, j.ofNative_native]
  · rintro rfl
    rfl
  · rw [← i.ofManaged_managed, h, j.ofManaged_managed]
  · rintro rfl
    rfl

/-- The digits at the end of a package are no part of the version. -/
theorem native_digits_apart : ∃ i j : Interface,
    i.text = "a.b1@2.3::IFoo" ∧ j.text = "a.b@12.3::IFoo" ∧
    native i.text = "::a::b1::V2_3::IFoo" ∧ managed j.text = "a.b.V12_3.IFoo" ∧
    native i.text ≠ native j.text := by
  let i : Interface := ⟨["a", "b1"], "2", "3", "IFoo", by decide, by decide, by decide, by decide,
    by decide⟩
  let j : Interface := ⟨["a", "b"], "12", "3", "IFoo", by decide, by decide, by decide, by decide,
    by decide⟩
  obtain ⟨hnative, -, -, -, hdistinct, -⟩ := translates_injectively i j
  obtain ⟨-, hmanaged, -⟩ := translates_injectively j i
  have hpackage : ["a", "b1"] ≠ ["a", "b"] := by decide
  exact ⟨i, j, by decide, by decide, hnative, hmanaged,
    fun h => hpackage (congrArg package (hdistinct.1 h))⟩

end Interface
end FqName
end Idl
