import Idl.Proofs.Deletion
import Idl.Proofs.Legible
import Idl.Proofs.WholeLines

/-!
# Names with and without their namespace

Inside a class a signature is written with short names, and outside of it with the namespace of the
runtime and the name of the class. Taking these away from the long form gives the short one. In the
long form each name of the runtime has its namespace once, at whatever depth it stands, and the
namespace stands nowhere else.
-/

namespace Idl

/-- The names of the runtime that signatures are written with. -/
def runtimeNames : List String := ["Return", "hidl_vec", "hidl_string", "hidl_handle"]

/-- At a place of a text, a name of the runtime begins if and only if its namespace ends there, and
the namespace does not end there for the second time. -/
def QualifiedAt (before after : List Char) : Prop :=
  ((∃ name ∈ runtimeNames, name.toList <+: after) ↔ runtimeNamespace.toList <:+ before) ∧
    ¬ runtimeNamespace.toList ++ runtimeNamespace.toList <:+ before

instance (before after : List Char) : Decidable (QualifiedAt before after) :=
  inferInstanceAs (Decidable (_ ∧ _))

/-- The names of the runtime stand where its namespace does, which is there once for each. -/
def Qualified (text : List Char) : Prop :=
  ∀ before after, text = before ++ after → QualifiedAt before after

/-- Whether the character stands between the names of a type. -/
def isBracket (c : Char) : Bool := [' ', '<', '>', '&'].contains c

/-- What stands between the names in a signature. -/
def dividers : List String := [" ", ", ", "(", ")", "<", ">", "&"]

theorem runtimeNamespace_ne_empty : runtimeNamespace ≠ "" := by decide +kernel

theorem without_namespace_of_no_colon {text : String} (h : ':' ∉ text.toList) :
    without runtimeNamespace text = text := by
  have hcolon : ':' ∈ runtimeNamespace.toList := by decide +kernel
  exact without_of_not_mem hcolon h

theorem separates_runtimeNamespace : ∀ divider ∈ dividers, Separates runtimeNamespace divider := by
  decide +kernel

theorem without_namespace_divided {divider : String} (h : divider ∈ dividers)
    (left right : String) : without runtimeNamespace (left ++ divider ++ right) =
      without runtimeNamespace left ++ divider ++ without runtimeNamespace right :=
  without_divided runtimeNamespace_ne_empty (separates_runtimeNamespace divider h) left right

namespace Qualified

variable {x y text : List Char} {c : Char}

theorem not_mem_of_isBracket (hc : isBracket c = true) :
    c ∉ runtimeNamespace.toList ∧ ∀ name ∈ runtimeNames, c ∉ name.toList := by
  simp only [isBracket, List.contains_iff_mem, List.mem_cons, List.not_mem_nil, or_false] at hc
  rcases hc with rfl | rfl | rfl | rfl <;> decide

/-- Texts that are qualified may be put side by side with a bracket between them. -/
theorem append_cons (hc : isBracket c = true) (hx : Qualified x) (hy : Qualified y) :
    Qualified (x ++ c :: y) := by
  obtain ⟨hnamespace, hnames⟩ := not_mem_of_isBracket hc
  have htwice : c ∉ runtimeNamespace.toList ++ runtimeNamespace.toList :=
    fun h => (List.mem_append.1 h).elim hnamespace hnamespace
  -- A name does not go on across the bracket, so it begins on the left or on the right.
  have hleft : ∀ before rest, x = before ++ rest → QualifiedAt before (rest ++ c :: y) := by
    intro before rest heq
    have hbegins : (∃ name ∈ runtimeNames, name.toList <+: rest ++ c :: y) ↔
        ∃ name ∈ runtimeNames, name.toList <+: rest := by
      refine exists_congr fun name => and_congr_right fun hname => ?_
      exact prefix_append_cons_iff (hnames name hname)
    rw [QualifiedAt, hbegins]
    exact hx before rest heq
  intro before after heq
  rcases List.append_eq_append_iff.1 heq with ⟨rest, rfl, hrest⟩ | ⟨rest, hrest, rfl⟩
  · cases rest with
    | nil =>
      rw [List.nil_append] at hrest
      rw [List.append_nil, ← hrest]
      exact hleft x [] (List.append_nil x).symm
    | cons d rest =>
      obtain ⟨rfl, hright⟩ := List.cons.inj hrest
      rw [QualifiedAt, suffix_append_cons_iff hnamespace, suffix_append_cons_iff htwice]
      exact hy rest after hright
  · exact hleft before rest hrest

/-- A short text is checked at each of its places. -/
theorem of_places (h : ∀ i ≤ text.length, QualifiedAt (text.take i) (text.drop i)) :
    Qualified text := by
  intro before after heq
  have hplace := h before.length (by simp [heq])
  rwa [heq, List.take_left, List.drop_left] at hplace

theorem nil : Qualified [] := of_places (by decide)

/-- No scalar has the namespace. -/
theorem not_infix_scalar (h : Qualified text) (k : Scalar) :
    ¬ (runtimeNamespace ++ k.native).toList <:+: text := by
  have hscalars : ∀ k ∈ Scalar.all, k.native.toList ≠ [] ∧ ∀ name ∈ runtimeNames,
      name.toList ≠ [] ∧ name.toList.head? ≠ k.native.toList.head? := by decide
  obtain ⟨hne, hnames⟩ := hscalars k (Scalar.mem_all k)
  rintro ⟨before, after, heq⟩
  have hplace := h (before ++ runtimeNamespace.toList) (k.native.toList ++ after) (by
    rw [← heq]
    simp)
  obtain ⟨name, hname, rest, hrest⟩ := hplace.1.2 (List.suffix_append _ _)
  obtain ⟨hne', hhead⟩ := hnames name hname
  refine hhead ?_
  rw [← List.head?_append_of_ne_nil _ hne', hrest, List.head?_append_of_ne_nil _ hne]

end Qualified

theorem Leaf.qualified_nativeResult {l : Leaf} (hl : l ∈ builtins) :
    Qualified (l.nativeResult true).toList := by
  have hall : ∀ l ∈ builtins, ∀ i ≤ (l.nativeResult true).toList.length,
      QualifiedAt ((l.nativeResult true).toList.take i) ((l.nativeResult true).toList.drop i) := by
    decide +kernel
  exact .of_places (hall l hl)

namespace Shape

variable {l : Leaf}

theorem qualified_nativeResult (hl : l ∈ Leaf.builtins) (depth : ℕ) :
    Qualified (((leaf l).vectors depth).nativeResult true).toList := by
  induction depth with
  | zero => exact Leaf.qualified_nativeResult hl
  | succ depth ih =>
    have hvector : Qualified (runtimeNamespace ++ "hidl_vec").toList :=
      .of_places (by decide +kernel)
    have hinner := hvector.append_cons (c := '<') (by decide)
      (ih.append_cons (c := '>') (by decide) .nil)
    rw [vectors, nativeResult]
    simpa [qualifier] using hinner

/-- A parameter is written as a result is, or as a constant reference to that. -/
theorem nativeArgument_eq_or (hl : l ∈ Leaf.builtins) (depth : ℕ) :
    let e := (leaf l).vectors depth
    (∀ qualified, e.nativeArgument qualified = e.nativeResult qualified) ∨
      ∀ qualified,
        e.nativeArgument qualified = "const" ++ " " ++ (e.nativeResult qualified ++ "&" ++ "") := by
  intro e
  have hconst : "const " = "const" ++ " " := by decide
  have hreference : ∀ text : String,
      constReference text = "const" ++ " " ++ (text ++ "&" ++ "") := by
    intro text
    rw [constReference, hconst]
    simp only [String.append_assoc, String.append_empty]
  cases depth with
  | succ depth => exact .inr fun qualified => hreference _
  | zero =>
    cases l with
    | scalar k => exact .inl fun qualified => rfl
    | string => exact .inr fun qualified => hreference _
    | handle => exact .inr fun qualified => hreference _
    | foreign f => simp [Leaf.builtins] at hl

theorem qualified_nativeArgument (hl : l ∈ Leaf.builtins) (depth : ℕ) :
    Qualified (((leaf l).vectors depth).nativeArgument true).toList := by
  have hresult := qualified_nativeResult hl depth
  rcases nativeArgument_eq_or hl depth with hvalue | hreference
  · rwa [hvalue]
  · have hconst : Qualified "const".toList := .of_places (by decide)
    have hinner := hconst.append_cons (c := ' ') (by decide)
      (hresult.append_cons (c := '&') (by decide) .nil)
    rw [hreference]
    simpa using hinner

/-- Without the namespace a type is written as it is inside a class. -/
theorem without_nativeResult (hl : l ∈ Leaf.builtins) (depth : ℕ) :
    without runtimeNamespace (((leaf l).vectors depth).nativeResult true) =
      ((leaf l).vectors depth).nativeResult false := by
  induction depth with
  | zero =>
    have hall : ∀ l ∈ Leaf.builtins,
        without runtimeNamespace (l.nativeResult true) = l.nativeResult false := by decide +kernel
    exact hall l hl
  | succ depth ih =>
    have hvector : ∀ qualified, ((leaf l).vectors (depth + 1)).nativeResult qualified =
        qualifier qualified ++ "hidl_vec" ++ "<" ++
          (((leaf l).vectors depth).nativeResult qualified ++ ">" ++ "") := by
      intro qualified
      have hopening : "hidl_vec<" = "hidl_vec" ++ "<" := by decide
      rw [vectors, nativeResult, hopening]
      simp only [String.append_assoc, String.append_empty]
    have hname : without runtimeNamespace (qualifier true ++ "hidl_vec") =
        qualifier false ++ "hidl_vec" := by decide +kernel
    rw [hvector, hvector, without_namespace_divided (by decide), hname,
      without_namespace_divided (by decide), ih, without_empty]

theorem without_nativeArgument (hl : l ∈ Leaf.builtins) (depth : ℕ) :
    without runtimeNamespace (((leaf l).vectors depth).nativeArgument true) =
      ((leaf l).vectors depth).nativeArgument false := by
  have hresult := without_nativeResult hl depth
  rcases nativeArgument_eq_or hl depth with hvalue | hreference
  · rw [hvalue, hvalue, hresult]
  · have hconst : without runtimeNamespace "const" = "const" := by decide
    rw [hreference, hreference, without_namespace_divided (by decide), hconst,
      without_namespace_divided (by decide), hresult, without_empty]

end Shape

namespace Method

variable {s : Scope} {m : Method} {style : NativeStyle}

/-- The return type of a native method. -/
def returnText (style : NativeStyle) (s : Scope) (m : Method) : String :=
  qualifier style.qualified ++ "Return<" ++ Native.returned style (m.signature s) ++ ">"

theorem Plain.qualified_returnText (hm : m.Plain s) (h : style.qualified = true) :
    Qualified (m.returnText style s).toList := by
  have hreturned : Qualified (Native.returned style (m.signature s)).toList := by
    rcases hm.returned_cases style with ⟨k, -, hk⟩ | ⟨-, hvoid⟩
    · rw [hk]
      exact Leaf.qualified_nativeResult (Leaf.scalar_mem_builtins k)
    · rw [hvoid]
      exact .of_places (by decide)
  have hreturn : Qualified (runtimeNamespace ++ "Return").toList := .of_places (by decide +kernel)
  have hinner := hreturn.append_cons (c := '<') (by decide)
    (hreturned.append_cons (c := '>') (by decide) .nil)
  rw [returnText, h]
  simpa [qualifier] using hinner

/-- A variable as a native parameter. -/
def parameter (qualified : Bool) (s : Scope) (v : Var) : String :=
  (s.shape v.type).nativeArgument qualified ++ " " ++ v.name

theorem run_signature (style : NativeStyle) (s : Scope) (m : Method) (k : Sink) :
    (Native.signature style (m.signature s)).run k =
      k.push (m.returnText style s ++ " " ++ (Native.owner style ++ m.name) ++ "(" ++
        (", ".intercalate (m.parameters style s ++ m.callbackPart s) ++ ")" ++ "")) := by
  obtain ⟨result, hwritten⟩ := exists_written style s m
  have hspace : "> " = ">" ++ " " := by decide
  rw [hwritten.signature_run, returnText, hspace]
  simp only [String.append_assoc, String.append_empty]

theorem run_results (style : NativeStyle) (s : Scope) (m : Method) (k : Sink) :
    (Native.results style (m.signature s)).run k =
      k.push (", ".intercalate (m.results.map (parameter style.qualified s))) := by
  change ((Doc.join ", " ((m.results.map (Var.param s)).map _)).run k) = _
  rw [List.map_map]
  exact Doc.run_join (fun _ _ _ => rfl) ", " k

/-- What is returned is written alike in every style. -/
theorem Plain.returned_eq (hm : m.Plain s) (style style' : NativeStyle) :
    Native.returned style (m.signature s) = Native.returned style' (m.signature s) := by
  rcases hm.returned_cases style with ⟨k, hshape, hk⟩ | ⟨hshape, hvoid⟩ <;>
    rcases hm.returned_cases style' with ⟨k', hshape', hk'⟩ | ⟨hshape', hvoid'⟩ <;>
    rw [hshape'] at hshape
  · cases hshape
    rw [hk, hk']
  · cases hshape
  · cases hshape
  · rw [hvoid, hvoid']

theorem returnText_eq (style : NativeStyle) (s : Scope) (m : Method) :
    m.returnText style s = qualifier style.qualified ++ "Return" ++ "<" ++
      (Native.returned style (m.signature s) ++ ">" ++ "") := by
  have hopening : "Return<" = "Return" ++ "<" := by decide
  rw [returnText, hopening]
  simp only [String.append_assoc, String.append_empty]

theorem Plain.not_colon_mem_returned (hm : m.Plain s) (style : NativeStyle) :
    ':' ∉ (Native.returned style (m.signature s)).toList := by
  rcases hm.returned_cases style with ⟨k, -, hk⟩ | ⟨-, hvoid⟩
  · have hscalars : ∀ k ∈ Scalar.all, ':' ∉ k.native.toList := by decide
    rw [hk]
    exact hscalars k (Scalar.mem_all k)
  · rw [hvoid]
    decide

theorem Plain.without_returnText (hm : m.Plain s) (owner owner' : Option String) :
    without runtimeNamespace (m.returnText ⟨true, owner⟩ s) = m.returnText ⟨false, owner'⟩ s := by
  have hname : without runtimeNamespace (qualifier true ++ "Return") =
      qualifier false ++ "Return" := by decide +kernel
  have hreturned : without runtimeNamespace (Native.returned ⟨true, owner⟩ (m.signature s)) =
      Native.returned ⟨false, owner'⟩ (m.signature s) := by
    rw [without_namespace_of_no_colon (hm.not_colon_mem_returned _)]
    exact hm.returned_eq _ _
  rw [returnText_eq, returnText_eq, without_namespace_divided (by decide), hname,
    without_namespace_divided (by decide), hreturned, without_empty]

theorem Plain.not_colon_mem_returnText (hm : m.Plain s) (owner : Option String) :
    ':' ∉ (m.returnText ⟨false, owner⟩ s).toList := by
  have hreturned := hm.not_colon_mem_returned ⟨false, owner⟩
  rw [returnText]
  simp [qualifier, hreturned]

/-- The variables have identifiers as names, and their types are resolved to builtin ones. -/
def PlainVars (s : Scope) (vars : List Var) : Prop :=
  ∀ v ∈ vars, isIdentifier v.name = true ∧ ∃ depth l, s.Resolved v.type depth l ∧ l ∈ Leaf.builtins

/-- Without the namespace variables are written as they are inside a class. -/
theorem PlainVars.map_without {vars : List Var} (h : PlainVars s vars) :
    (vars.map (parameter true s)).map (without runtimeNamespace) =
      vars.map (parameter false s) := by
  rw [List.map_map]
  refine List.map_congr_left fun v hv => ?_
  obtain ⟨hname, depth, l, hresolved, hl⟩ := h v hv
  have hcolon : ':' ∉ v.name.toList := not_mem_of_isIdentifier hname (by decide)
  change without runtimeNamespace (parameter true s v) = _
  rw [parameter, parameter, without_namespace_divided (by decide), hresolved.shape_eq,
    Shape.without_nativeArgument hl, without_namespace_of_no_colon hcolon]

theorem PlainVars.not_colon_mem {vars : List Var} (h : PlainVars s vars) :
    ∀ text ∈ vars.map (parameter false s), ':' ∉ text.toList := by
  intro text htext
  obtain ⟨v, hv, rfl⟩ := List.mem_map.1 htext
  obtain ⟨hname, depth, l, hresolved, hl⟩ := h v hv
  have hleaves : ∀ l ∈ Leaf.builtins, ':' ∉ (l.nativeResult false).toList := by decide
  have htype := Shape.not_mem_nativeArgument hl (hleaves l hl) (by decide) depth
  have hcolon : ':' ∉ v.name.toList := not_mem_of_isIdentifier hname (by decide)
  rw [parameter, hresolved.shape_eq]
  simp [htype, hcolon]

theorem Plain.plainVars_args (hm : m.Plain s) : PlainVars s m.args :=
  fun v hv => ⟨hm.argNames v hv, hm.types v (List.mem_append_left _ hv)⟩

/-- The name of a method is not reached by the namespace, which has too many colons for that. -/
theorem without_ownedName {owner name : String} (howner : isIdentifier owner = true)
    (hname : isIdentifier name = true) :
    without runtimeNamespace (owner ++ "::" ++ name) = owner ++ "::" ++ name := by
  refine without_of_not_infix fun h => ?_
  have hnamespace : runtimeNamespace.toList.count ':' = 6 := by decide
  have howner' := List.count_eq_zero.2 (not_mem_of_isIdentifier howner (c := ':') (by decide))
  have hname' := List.count_eq_zero.2 (not_mem_of_isIdentifier hname (c := ':') (by decide))
  have hcolons : "::".toList.count ':' = 2 := by decide
  have hcount := h.sublist.count_le ':'
  rw [String.toList_append, String.toList_append, List.count_append, List.count_append] at hcount
  omega

theorem Plain.not_colon_mem_callbackPart (hm : m.Plain s) :
    ∀ part ∈ m.callbackPart s, ':' ∉ part.toList := by
  have hcolon : ':' ∉ m.name.toList := not_mem_of_isIdentifier hm.name (by decide)
  rcases callbackPart_cases s m with ⟨-, hpart⟩ | ⟨-, hpart⟩ <;> rw [hpart]
  · intro part hmem
    rw [List.mem_singleton.1 hmem]
    simp [hcolon]
  · exact fun part hmem => absurd hmem List.not_mem_nil

/-- What stands between the parts of a signature divides the name of a class as well. -/
theorem separates_owner {owner : String} (howner : isIdentifier owner = true) :
    ∀ divider ∈ dividers, Separates (owner ++ "::") divider := by
  have hdividers : ∀ divider ∈ dividers, divider ≠ "" ∧
      (divider.toList.all fun c => !isIdentifierRest c && c != ':') = true := by decide
  intro divider hdivider
  obtain ⟨hne, hchars⟩ := hdividers divider hdivider
  refine ⟨hne, fun c hc => ?_⟩
  have hchar := List.all_eq_true.1 hchars c hc
  rw [Bool.and_eq_true, Bool.not_eq_true', bne_iff_ne] at hchar
  have hnot : c ∉ owner.toList := not_mem_of_isIdentifier howner hchar.1
  simp [hnot, hchar.2]

/-- A word that does not go across a divider is deleted from each part of a signature alone. -/
theorem without_signature {word : String} (hne : word ≠ "")
    (hword : ∀ divider ∈ dividers, Separates word divider) (returned name : String)
    (parts : List String) :
    without word (returned ++ " " ++ name ++ "(" ++ (", ".intercalate parts ++ ")" ++ "")) =
      without word returned ++ " " ++ without word name ++ "(" ++
        (", ".intercalate (parts.map (without word)) ++ ")" ++ "") := by
  rw [without_divided hne (hword _ (by decide)), without_divided hne (hword _ (by decide)),
    without_divided hne (hword _ (by decide)), without_intercalate hne (hword _ (by decide)),
    without_empty]

theorem Plain.without_namespace_signature {owner : String} (hm : m.Plain s)
    (howner : isIdentifier owner = true) :
    without runtimeNamespace (Native.signature (.source owner) (m.signature s)).toText =
      (Native.signature ⟨false, some owner⟩ (m.signature s)).toText := by
  have hcolon : ':' ∈ runtimeNamespace.toList := by decide +kernel
  have hparts : (m.parameters (.source owner) s ++ m.callbackPart s).map
      (without runtimeNamespace) = m.parameters ⟨false, some owner⟩ s ++ m.callbackPart s := by
    rw [List.map_append, map_without_of_not_mem hcolon hm.not_colon_mem_callbackPart]
    exact congrArg (· ++ m.callbackPart s) hm.plainVars_args.map_without
  have hreturn : without runtimeNamespace (m.returnText (.source owner) s) =
      m.returnText ⟨false, some owner⟩ s := hm.without_returnText _ _
  have hname : without runtimeNamespace (Native.owner (.source owner) ++ m.name) =
      Native.owner ⟨false, some owner⟩ ++ m.name := without_ownedName howner hm.name
  rw [Doc.toText_of_run (run_signature _ s m), Doc.toText_of_run (run_signature _ s m),
    without_signature runtimeNamespace_ne_empty separates_runtimeNamespace, hreturn, hname, hparts]

theorem Plain.without_owner_signature {owner : String} (hm : m.Plain s)
    (howner : isIdentifier owner = true) :
    without (owner ++ "::") (Native.signature ⟨false, some owner⟩ (m.signature s)).toText =
      (Native.signature .header (m.signature s)).toText := by
  have hne : owner ++ "::" ≠ "" := by simp [String.append_eq_empty_iff]
  have hcolon : ':' ∈ (owner ++ "::").toList := by simp
  have hparts : (m.parameters ⟨false, some owner⟩ s ++ m.callbackPart s).map
      (without (owner ++ "::")) = m.parameters .header s ++ m.callbackPart s := by
    refine map_without_of_not_mem hcolon fun part hpart => ?_
    rcases List.mem_append.1 hpart with hpart | hpart
    · exact hm.plainVars_args.not_colon_mem part hpart
    · exact hm.not_colon_mem_callbackPart part hpart
  have hreturn : without (owner ++ "::") (m.returnText ⟨false, some owner⟩ s) =
      m.returnText .header s := by
    rw [without_of_not_mem hcolon (hm.not_colon_mem_returnText _), returnText, returnText,
      hm.returned_eq ⟨false, some owner⟩ .header]
    rfl
  have hname : without (owner ++ "::") (Native.owner ⟨false, some owner⟩ ++ m.name) =
      Native.owner .header ++ m.name := by
    rw [Native.owner, without_append_self hne, without_of_not_mem hcolon]
    · exact String.empty_append.symm
    · exact not_mem_of_isIdentifier hm.name (by decide)
  rw [Doc.toText_of_run (run_signature _ s m), Doc.toText_of_run (run_signature _ s m),
    without_signature hne (separates_owner howner), hreturn, hname, hparts]

theorem PlainVars.without_results {owner : String} (h : PlainVars s m.results)
    (howner : isIdentifier owner = true) :
    without (owner ++ "::")
        (without runtimeNamespace (Native.results (.source owner) (m.signature s)).toText) =
      (Native.results .header (m.signature s)).toText := by
  have hne : owner ++ "::" ≠ "" := by simp [String.append_eq_empty_iff]
  have hcolon : ':' ∈ (owner ++ "::").toList := by simp
  have hnamespace : (m.results.map (parameter (NativeStyle.source owner).qualified s)).map
      (without runtimeNamespace) = m.results.map (parameter false s) := h.map_without
  have hparts := map_without_of_not_mem hcolon h.not_colon_mem
  rw [Doc.toText_of_run (run_results _ s m), Doc.toText_of_run (run_results _ s m),
    without_intercalate runtimeNamespace_ne_empty (separates_runtimeNamespace _ (by decide)),
    hnamespace, without_intercalate hne (separates_owner howner _ (by decide)), hparts]
  rfl

/-- Outside its class a method has the text that it has inside, with two names put before others:
the namespace of the runtime and the class. When they are deleted, the rest is the signature inside
the class, and so for the results that a callback takes. The namespace stands before the outer
`Return` and each type of the runtime, once, however deep the type is nested, and before no
scalar. -/
theorem header_eq_source_without_names {s : Scope} {m : Method} {owner : String} (hm : m.Plain s)
    (hresults : ∀ v ∈ m.results, isIdentifier v.name = true)
    (howner : isIdentifier owner = true) :
    let source : NativeStyle := .source owner
    let g := m.signature s
    let stripped (d : Doc) := without (owner ++ "::") (without runtimeNamespace d.toText)
    stripped (Native.signature source g) = (Native.signature .header g).toText ∧
      stripped (Native.results source g) = (Native.results .header g).toText ∧
      (∀ (style : NativeStyle) (k : Sink),
        (Native.signature style g).run k = k.push (Native.signature style g).toText ∧
          (Native.results style g).run k = k.push (Native.results style g).toText) ∧
      (Native.signature source g).toText =
        m.returnText source s ++ " " ++ (owner ++ "::" ++ m.name) ++ "(" ++
          ", ".intercalate (m.args.map (parameter true s) ++ m.callbackPart s) ++ ")" ∧
      (Native.results source g).toText = ", ".intercalate (m.results.map (parameter true s)) ∧
      (runtimeNamespace ++ "Return<").toList <+: (m.returnText source s).toList ∧
      ∀ type ∈ m.returnText source s ::
          (m.args ++ m.results).map fun v => (s.shape v.type).nativeArgument true,
        Qualified type.toList ∧
          ∀ k : Scalar, ¬ (runtimeNamespace ++ k.native).toList <:+: type.toList := by
  intro source g stripped
  have hvars : PlainVars s m.results :=
    fun v hv => ⟨hresults v hv, hm.types v (List.mem_append_right _ hv)⟩
  have htext := Doc.toText_of_run (run_signature source s m)
  refine ⟨?_, hvars.without_results howner, fun style k => ⟨?_, ?_⟩, ?_,
    Doc.toText_of_run (run_results source s m), ?_, fun type htype => ?_⟩
  · change without (owner ++ "::") _ = _
    rw [hm.without_namespace_signature howner, hm.without_owner_signature howner]
  · rw [Doc.toText_of_run (run_signature style s m), run_signature]
  · rw [Doc.toText_of_run (run_results style s m), run_results]
  · have howned : Native.owner source = owner ++ "::" := rfl
    have hparameters : m.parameters source s = m.args.map (parameter true s) := rfl
    rw [htext, howned, hparameters]
    simp only [String.append_assoc, String.append_empty]
  · have hreturn : runtimeNamespace ++ "Return<" ++ (Native.returned source g ++ ">") =
        m.returnText source s := String.append_assoc.symm
    refine ⟨(Native.returned source g ++ ">").toList, ?_⟩
    rw [← String.toList_append, hreturn]
  · have hqualified : Qualified type.toList := by
      rcases List.mem_cons.1 htype with rfl | htype
      · exact hm.qualified_returnText rfl
      · obtain ⟨v, hv, rfl⟩ := List.mem_map.1 htype
        obtain ⟨depth, l, hresolved, hl⟩ := hm.types v hv
        rw [hresolved.shape_eq]
        exact Shape.qualified_nativeArgument hl depth
    exact ⟨hqualified, hqualified.not_infix_scalar⟩

/-- Two aliases deep, with a parameter that is called like a type of the runtime. -/
theorem header_of_aliased_strings :
    let names : Ty := .ref ⟨1, "Names", .empty⟩
    let bound := (Scope.initial.bind "Name" .string).bind "Names" (.vec (.ref ⟨0, "Name", .empty⟩))
    let s := (bound.evaluate names).2
    let m : Method := ⟨⟨2, "set", ⟨[⟨"hidl_string", names, .empty⟩], by simp⟩,
      ⟨[⟨"old", .vec names, .empty⟩], by simp⟩, false, []⟩, .empty, .ordinary none⟩
    let source := (Native.signature (.source "IBase") (m.signature s)).toText
    source = "::android::hardware::Return<void> IBase::set(const ::android::hardware::hidl_vec<" ++
        "::android::hardware::hidl_string>& hidl_string, set_cb _hidl_cb)" ∧
      without ("IBase" ++ "::") (without runtimeNamespace source) =
        (Native.signature .header (m.signature s)).toText ∧
      (Native.signature .header (m.signature s)).toText =
        "Return<void> set(const hidl_vec<hidl_string>& hidl_string, set_cb _hidl_cb)" := by
  intro names bound s m source
  have hnames : s.Resolved names 1 .string := ⟨rfl, _, .hop rfl (.vec (.hop rfl (.leaf _)))⟩
  have hold : s.Resolved (.vec names) 2 .string :=
    ⟨rfl, _, .vec (.hop rfl (.vec (.hop rfl (.leaf _))))⟩
  have hm : m.Plain s := by
    refine ⟨by decide, fun v hv => ?_, fun v hv => ?_⟩
    · rw [List.mem_singleton.1 hv]
      decide
    · rcases List.mem_pair.1 hv with rfl | rfl
      · exact ⟨1, .string, hnames, .head _⟩
      · exact ⟨2, .string, hold, .head _⟩
  have hresults : ∀ v ∈ m.results, isIdentifier v.name = true := by
    intro v hv
    rw [List.mem_singleton.1 hv]
    decide
  have howner : isIdentifier "IBase" = true := by decide
  exact ⟨by decide +kernel, (header_eq_source_without_names hm hresults howner).1,
    by decide +kernel⟩

end Method
end Idl
