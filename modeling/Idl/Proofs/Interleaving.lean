import Idl.Request.Arguments
import Mathlib.Data.List.Basic
import Mathlib.Data.List.Count

/-!
# Interleaved options

A request is spelled by options with their values joined to them and by switches. The values of each
option stand in the order in which the request has them, and what stands between them is of no
account: `Request.items` is one spelling of many, and `Request.ofItems` takes each option on its
own. Arguments are read one after the other, and what has been read is always what the items read so
far make.
-/

namespace Idl

/-- An option with the value that is joined to it, or a switch. -/
inductive Item where
  | setting (o : Setting) (value : String)
  | switch (o : Switch)
  deriving DecidableEq

namespace Item

def text : Item → String
  | setting o value => "--" ++ o.word ++ "=" ++ value
  | switch o => "--" ++ o.word

def valueOf? (o : Setting) : Item → Option String
  | setting o' value => if o' = o then some value else none
  | switch _ => none

/-- The values given to an option, in order. -/
def values (o : Setting) (items : List Item) : List String := items.filterMap (valueOf? o)

def sets (dropped : List Setting) : Item → Bool
  | setting o _ => o ∈ dropped
  | switch _ => false

/-- The items that give no value to these options. -/
def without (dropped : List Setting) (items : List Item) : List Item :=
  items.filter fun item => !item.sets dropped

end Item

namespace Request

/-- The values that a request has for an option. -/
def values (r : Request) : Setting → List String
  | .name => r.name.toList
  | .arg => r.args
  | .result => r.results
  | .note => r.annotations
  | .owner => r.owner.toList
  | .backend => [r.backend.name]
  | .reserved => r.reserved.toList
  | .output => r.output.toList

/-- A request is never one for help. -/
def isOn (r : Request) : Switch → Bool
  | .oneway => r.oneway
  | .namespaces => r.namespaces
  | .verbose => r.verbose
  | .help => false

/-- Each value of the request is given once, those of one option in their order, and each switch
that is on is turned on once. The backend may be left out if it is the one that is chosen then. -/
structure SpelledBy (r : Request) (items : List Item) : Prop where
  values_eq : ∀ o, o ≠ .backend → Item.values o items = r.values o
  backend : Item.values .backend items = r.values .backend ∨
    Item.values .backend items = [] ∧ r.backend = .all
  switches : ∀ o, items.count (.switch o) = (r.isOn o).toNat

/-- The options one after the other, and then the switches that are on. -/
def items (r : Request) : List Item :=
  Setting.all.flatMap (fun o => (r.values o).map (.setting o)) ++
    (Switch.all.filter r.isOn).map .switch

/-- The request that items make, whatever stands between those of one option. -/
def ofItems (items : List Item) : Request where
  name := (Item.values .name items).head?
  args := Item.values .arg items
  results := Item.values .result items
  oneway := .switch .oneway ∈ items
  annotations := Item.values .note items
  owner := (Item.values .owner items).head?
  namespaces := .switch .namespaces ∈ items
  backend := ((Item.values .backend items).head?.bind Selection.ofName?).getD .all
  reserved := (Item.values .reserved items).head?
  output := (Item.values .output items).head?
  verbose := .switch .verbose ∈ items

end Request

namespace Setting

def isRepeatable : Setting → Bool
  | arg | result | note => true
  | name | owner | backend | reserved | output => false

def Admits : Setting → String → Prop
  | backend, value => ∃ choice : Selection, choice.name = value
  | output, value => value ≠ ""
  | _, _ => True

theorem not_equals_mem_word (o : Setting) : '=' ∉ o.word.toList := by cases o <;> decide

end Setting

namespace Switch

theorem split_word (o : Switch) : Text.splitAtFirst? ['='] o.word.toList = none := by
  cases o <;> decide

theorem ofWord?_setting_word (o : Switch) : Setting.ofWord? o.word.toList = none := by
  cases o <;> decide

end Switch

namespace Item

variable {o : Setting} {value : String} {items rest : List Item} {item : Item}

theorem values_append (o : Setting) (items rest : List Item) :
    values o (items ++ rest) = values o items ++ values o rest :=
  List.filterMap_append

@[simp] theorem values_setting (o o' : Setting) (value : String) (items : List Item) :
    values o (items ++ [.setting o' value]) =
      if o' = o then values o items ++ [value] else values o items := by
  rw [values_append]
  by_cases h : o' = o <;> simp [values, valueOf?, h]

@[simp] theorem values_switch (o : Setting) (s : Switch) (items : List Item) :
    values o (items ++ [.switch s]) = values o items := by
  rw [values_append]
  exact List.append_nil _

theorem values_map_setting (o o' : Setting) (given : List String) :
    values o (given.map (.setting o')) = if o' = o then given else [] := by
  rw [values, List.filterMap_map]
  by_cases h : o' = o
  · rw [if_pos h]
    exact (List.filterMap_congr fun value _ => if_pos h).trans List.filterMap_some
  · rw [if_neg h, List.filterMap_eq_nil_iff]
    exact fun value _ => if_neg h

theorem values_map_switch (o : Setting) (switches : List Switch) :
    values o (switches.map .switch) = [] := by
  rw [values, List.filterMap_map, List.filterMap_eq_nil_iff]
  exact fun _ _ => rfl

theorem mem_values_iff : value ∈ values o items ↔ .setting o value ∈ items := by
  rw [values, List.mem_filterMap]
  constructor
  · rintro ⟨item, hitem, hvalue⟩
    cases item with
    | setting o' value' =>
      rw [valueOf?] at hvalue
      split at hvalue
      · next heq =>
        cases heq
        cases hvalue
        exact hitem
      · cases hvalue
    | switch s => cases hvalue
  · intro h
    exact ⟨_, h, if_pos rfl⟩

theorem values_without (o : Setting) (dropped : List Setting) (items : List Item) :
    values o (without dropped items) = if o ∈ dropped then [] else values o items := by
  have hitem : ∀ item : Item, (if (!item.sets dropped) = true then item.valueOf? o else none) =
      if o ∈ dropped then none else item.valueOf? o := by
    intro item
    cases item with
    | setting o' value => by_cases ho' : o' = o <;> by_cases ho : o ∈ dropped <;>
        simp [sets, valueOf?, ho', ho]
    | switch s => by_cases ho : o ∈ dropped <;> simp [sets, valueOf?, ho]
  rw [values, without, List.filterMap_filter]
  by_cases ho : o ∈ dropped
  · rw [if_pos ho, List.filterMap_eq_nil_iff]
    exact fun item _ => (hitem item).trans (if_pos ho)
  · rw [if_neg ho]
    exact List.filterMap_congr fun item _ => (hitem item).trans (if_neg ho)

theorem count_without (s : Switch) (dropped : List Setting) (items : List Item) :
    (without dropped items).count (.switch s) = items.count (.switch s) := by
  rw [without, List.count_filter rfl]

/-- Every item can be read after those before it: an option that takes one value and a switch are
given once, a backend is one of those there are, and a file has a name. -/
structure Proper (items : List Item) : Prop where
  once : ∀ o, o.isRepeatable = false → (values o items).length ≤ 1
  admitted : ∀ o value, .setting o value ∈ items → o.Admits value
  switched : ∀ s, items.count (.switch s) ≤ 1
  unaided : .switch .help ∉ items

theorem text_ne_dashes (item : Item) : item.text ≠ "--" := by
  cases item with
  | setting o value => cases o <;> simp [text, Setting.word, ← String.toList_inj]
  | switch o => cases o <;> decide

end Item

namespace PartialRequest

variable {p : PartialRequest} {items rest : List Item} {item : Item}

def ofItems (items : List Item) : PartialRequest :=
  ⟨.ofItems items, !(Item.values .backend items).isEmpty, none⟩

def take (p : PartialRequest) : Item → Except ArgumentError PartialRequest
  | .setting o value => p.give o value
  | .switch o => p.turnOn o

theorem settle_of_held (h : p.held = none) : p.settle = .ok p := by
  rw [settle, h]

/-- An item is taken at once, as no value before it is held back. -/
theorem read_text (h : p.held = none) (item : Item) : p.read item.text = p.take item := by
  cases item with
  | setting o value =>
    have htext : (Item.setting o value).text.toList =
        '-' :: '-' :: (o.word.toList ++ ['='] ++ value.toList) := by
      simp [Item.text]
    rw [read, htext]
    simp only [readLong]
    rw [Text.splitAtFirst?_append o.not_equals_mem_word]
    simp only [Setting.ofWord?_word, readSetting, settle_of_held h, String.ofList_toList]
    rfl
  | switch o =>
    have htext : (Item.switch o).text.toList = '-' :: '-' :: o.word.toList := by
      simp [Item.text]
    rw [read, htext]
    simp only [readLong, o.split_word, o.ofWord?_setting_word, Switch.ofWord?_word, readSwitch,
      settle_of_held h]
    rfl

theorem taken_ofItems (o : Setting) (items : List Item) :
    (ofItems items).taken o = (!o.isRepeatable && !(Item.values o items).isEmpty) := by
  have hhead : ∀ values : List String, values.head?.isSome = !values.isEmpty := by
    intro values
    cases values <;> rfl
  cases o <;> simp [taken, ofItems, Request.ofItems, Setting.isRepeatable, hhead]

theorem setValue_ofItems {o : Setting} {value : String} (hvalue : o.Admits value)
    (hfree : o.isRepeatable = false → Item.values o items = []) :
    (ofItems items).setValue value o = .ok (ofItems (items ++ [.setting o value])) := by
  cases o with
  | backend =>
    obtain ⟨choice, rfl⟩ := hvalue
    simp [setValue, Selection.ofName?_name, ofItems, Request.ofItems, hfree rfl]
  | output =>
    have hne : value ≠ "" := hvalue
    simp [setValue, hne, ofItems, Request.ofItems, hfree rfl]
  | name | owner | reserved => simp [setValue, ofItems, Request.ofItems, hfree rfl]
  | arg | result | note => simp [setValue, ofItems, Request.ofItems]

theorem turnOn_ofItems {s : Switch} (hs : s ≠ .help) (hfree : .switch s ∉ items) :
    (ofItems items).turnOn s = .ok (ofItems (items ++ [.switch s])) := by
  cases s with
  | help => exact absurd rfl hs
  | oneway | namespaces | verbose => simp [turnOn, ofItems, Request.ofItems, hfree]

/-- One more item is taken into what the items before it make. -/
theorem take_ofItems (h : Item.Proper (items ++ item :: rest)) :
    (ofItems items).take item = .ok (ofItems (items ++ [item])) := by
  cases item with
  | setting o value =>
    have hfree : o.isRepeatable = false → Item.values o items = [] := by
      intro ho
      have honce := h.once o ho
      rw [List.append_cons, Item.values_append, Item.values_setting, if_pos rfl,
        List.length_append, List.length_append, List.length_singleton] at honce
      exact List.eq_nil_of_length_eq_zero (by omega)
    have htaken : (ofItems items).taken o = false := by
      rw [taken_ofItems]
      cases ho : o.isRepeatable with
      | true => rfl
      | false =>
        rw [hfree ho]
        rfl
    rw [take, give, htaken]
    exact setValue_ofItems (h.admitted o value (by simp)) hfree
  | switch s =>
    have hhelp : s ≠ .help := by
      rintro rfl
      exact h.unaided (by simp)
    have hfree : .switch s ∉ items := by
      intro hmem
      have honce := h.switched s
      have hbefore := List.count_pos_iff.2 hmem
      rw [List.count_append, List.count_cons_self] at honce
      omega
    exact turnOn_ofItems hhelp hfree

/-- The items that have been read make the state in which the others are read. -/
theorem readAll_ofItems (h : Item.Proper (items ++ rest)) :
    (ofItems items).readAll (rest.map Item.text) = .ok (ofItems (items ++ rest)) := by
  induction rest generalizing items with
  | nil =>
    rw [List.append_nil]
    exact settle_of_held rfl
  | cons item rest ih =>
    rw [List.map_cons, readAll, if_neg item.text_ne_dashes, read_text rfl, take_ofItems h,
      List.append_cons items item rest]
    rw [List.append_cons items item rest] at h
    exact ih h

end PartialRequest

namespace Request

variable {r : Request} {items : List Item}

theorem values_items (r : Request) (o : Setting) : Item.values o r.items = r.values o := by
  have hsettings : Item.values o (Setting.all.flatMap fun o' => (r.values o').map (.setting o')) =
      Setting.all.flatMap fun o' => if o' = o then r.values o' else [] := by
    rw [Item.values, List.filterMap_flatMap]
    exact List.flatMap_congr fun o' _ => Item.values_map_setting o o' (r.values o')
  rw [items, Item.values_append, hsettings, Item.values_map_switch, List.append_nil]
  cases o <;> simp [Setting.all]

theorem count_switch_items (r : Request) (o : Switch) :
    r.items.count (.switch o) = (r.isOn o).toNat := by
  have hsettings : Item.switch o ∉
      Setting.all.flatMap fun o' => (r.values o').map (Item.setting o') := by
    simp
  have hinjective : Function.Injective Item.switch := fun _ _ h => Item.switch.inj h
  rw [items, List.count_append, List.count_eq_zero.2 hsettings, Nat.zero_add,
    List.count_map_of_injective _ _ hinjective]
  cases hon : r.isOn o with
  | true =>
    rw [List.count_filter hon]
    cases o <;> rfl
  | false =>
    have hoff : o ∉ Switch.all.filter r.isOn := by simp [hon]
    exact List.count_eq_zero.2 hoff

theorem spelledBy_items (r : Request) : r.SpelledBy r.items where
  values_eq o _ := r.values_items o
  backend := .inl (r.values_items .backend)
  switches o := r.count_switch_items o

theorem SpelledBy.values_cases (h : r.SpelledBy items) (o : Setting) :
    Item.values o items = r.values o ∨ Item.values o items = [] := by
  by_cases ho : o = .backend
  · subst ho
    exact h.backend.imp_right And.left
  · exact .inl (h.values_eq o ho)

theorem length_values_le {o : Setting} (ho : o.isRepeatable = false) (r : Request) :
    (r.values o).length ≤ 1 := by
  cases o with
  | arg | result | note => cases ho
  | backend => exact Nat.le_refl 1
  | name | owner | reserved | output => exact Option.length_toList_le

theorem admits_of_mem_values {o : Setting} {value : String} (houtput : r.output ≠ some "")
    (h : value ∈ r.values o) : o.Admits value := by
  cases o with
  | backend => exact ⟨r.backend, (List.mem_singleton.1 h).symm⟩
  | output =>
    rintro rfl
    exact houtput (Option.mem_toList.1 h)
  | name | arg | result | note | owner | reserved => trivial

theorem SpelledBy.proper (h : r.SpelledBy items) (houtput : r.output ≠ some "") :
    Item.Proper items where
  once o ho := by
    rcases h.values_cases o with heq | hnil
    · rw [heq]
      exact length_values_le ho r
    · simp [hnil]
  admitted o value hvalue := by
    rw [← Item.mem_values_iff] at hvalue
    rcases h.values_cases o with heq | hnil
    · rw [heq] at hvalue
      exact admits_of_mem_values houtput hvalue
    · rw [hnil] at hvalue
      cases hvalue
  switched o := by
    rw [h.switches o]
    exact Bool.toNat_le _
  unaided := List.count_eq_zero.1 (h.switches .help)

theorem SpelledBy.decide_mem (h : r.SpelledBy items) (o : Switch) :
    decide (.switch o ∈ items) = r.isOn o := by
  have hcount := h.switches o
  cases hon : r.isOn o with
  | true =>
    have hpos : 0 < items.count (.switch o) := by
      rw [hcount, hon]
      exact Nat.one_pos
    exact decide_eq_true (List.count_pos_iff.1 hpos)
  | false =>
    rw [hon] at hcount
    exact decide_eq_false (List.count_eq_zero.1 hcount)

theorem SpelledBy.ofItems_eq (h : r.SpelledBy items) : ofItems items = r := by
  have hbackend : ((Item.values .backend items).head?.bind Selection.ofName?).getD .all =
      r.backend := by
    rcases h.backend with heq | ⟨hnil, hall⟩
    · rw [heq]
      exact congrArg (Option.getD · .all) (Selection.ofName?_name r.backend)
    · rw [hnil, hall]
      rfl
  rw [ofItems, hbackend, h.decide_mem, h.decide_mem, h.decide_mem, h.values_eq .name nofun,
    h.values_eq .arg nofun, h.values_eq .result nofun, h.values_eq .note nofun,
    h.values_eq .owner nofun, h.values_eq .reserved nofun, h.values_eq .output nofun]
  simp only [values, isOn, Option.head?_toList]

theorem SpelledBy.ofArguments_eq (h : r.SpelledBy items) (houtput : r.output ≠ some "") :
    ofArguments (items.map Item.text) =
      if r.name.isNone && r.reserved.isNone then .error .missingRequired else .ok r := by
  have hproper : Item.Proper ([] ++ items) := h.proper houtput
  have hread : PartialRequest.blank.readAll (items.map Item.text) = .ok (.ofItems items) :=
    PartialRequest.readAll_ofItems hproper
  rw [ofArguments, hread]
  change (if (ofItems items).name.isNone && (ofItems items).reserved.isNone then
    Except.error ArgumentError.missingRequired else Except.ok (ofItems items)) = _
  rw [h.ofItems_eq]

theorem SpelledBy.without_backend (h : r.SpelledBy items) :
    SpelledBy { r with backend := .all } (Item.without [.backend] items) where
  values_eq o ho := by
    have hkept : o ∉ [Setting.backend] := fun hmem => ho (List.mem_singleton.1 hmem)
    rw [Item.values_without, if_neg hkept, h.values_eq o ho]
    cases o with
    | backend => exact absurd rfl ho
    | name | arg | result | note | owner | reserved | output => rfl
  backend := .inr ⟨by rw [Item.values_without, if_pos (List.mem_singleton_self _)], rfl⟩
  switches o := by
    rw [Item.count_without, h.switches o]
    cases o <;> rfl

theorem SpelledBy.without_names (h : r.SpelledBy items) :
    SpelledBy { r with name := none, reserved := none }
      (Item.without [.name, .reserved] items) where
  values_eq o ho := by
    rw [Item.values_without, h.values_eq o ho]
    cases o <;> rfl
  backend := by
    rw [Item.values_without, if_neg (by decide)]
    exact h.backend
  switches o := by
    rw [Item.count_without, h.switches o]
    cases o <;> rfl

/-- A request can be spelled, and however the items that spell it are interleaved, it is read back
from them, and nothing in a value is taken for anything else. Without the backend it is read as a
request for all of them, and without the names of a method and of an interface it is refused. -/
theorem ofArguments_of_spelledBy (r : Request)
    (hnamed : r.name.isSome = true ∨ r.reserved.isSome = true) (houtput : r.output ≠ some "") :
    (∃ items, r.SpelledBy items) ∧ ∀ items, r.SpelledBy items →
      ofArguments (items.map Item.text) = .ok r ∧
      ofArguments ((Item.without [.backend] items).map Item.text) =
        .ok { r with backend := .all } ∧
      ofArguments ((Item.without [.name, .reserved] items).map Item.text) =
        .error .missingRequired := by
  have hasked : (r.name.isNone && r.reserved.isNone) = false := by
    rw [Bool.and_eq_false_iff, Option.isNone_eq_false_iff, Option.isNone_eq_false_iff]
    exact hnamed
  refine ⟨⟨r.items, r.spelledBy_items⟩, fun items h => ⟨?_, ?_, ?_⟩⟩
  · rw [h.ofArguments_eq houtput, hasked]
    rfl
  · rw [h.without_backend.ofArguments_eq houtput, hasked]
    rfl
  · rw [h.without_names.ofArguments_eq houtput]
    rfl

/-- Values that look like options, hold the sign between an option and its value, or are empty. -/
theorem ofArguments_of_values_like_options :
    let r : Request :=
      { Request.blank with
        name := some "--result=int32:x"
        args := ["=", "", "--"]
        results := [" int32 : x "]
        oneway := true
        owner := some ""
        backend := .managed
        output := some "-o"
        verbose := true }
    let items : List Item :=
      [.setting .arg "=", .switch .verbose, .setting .output "-o", .setting .arg "",
        .setting .backend "managed", .setting .result " int32 : x ",
        .setting .name "--result=int32:x", .switch .oneway, .setting .arg "--", .setting .owner ""]
    r.SpelledBy items ∧ (r.name.isSome = true ∨ r.reserved.isSome = true) ∧
      r.output ≠ some "" ∧
      ofArguments (items.map Item.text) = .ok r ∧
      ofArguments ((Item.without [.backend] items).map Item.text) =
        .ok { r with backend := .all } ∧
      ofArguments ((Item.without [.name, .reserved] items).map Item.text) =
        .error .missingRequired := by
  intro r items
  have hspelled : r.SpelledBy items := by
    refine ⟨fun o _ => ?_, .inl rfl, fun o => ?_⟩ <;> cases o <;> rfl
  have hnamed : r.name.isSome = true ∨ r.reserved.isSome = true := .inl rfl
  have houtput : r.output ≠ some "" := by decide
  exact ⟨hspelled, hnamed, houtput,
    (ofArguments_of_spelledBy r hnamed houtput).2 items hspelled⟩

end Request
end Idl
