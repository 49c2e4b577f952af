import Idl.Proofs.Separators
import Idl.Proofs.Spelling
import Mathlib.Data.List.Nodup

/-!
# Native signatures can be read back

The native text of a method separates its parts by characters that none of them contains, as long as
names are identifiers and types are resolved to builtin ones. So the parts can be cut out again, and
from them the method: its name, its arguments with their types, and how it hands over its results.
-/

namespace Idl

/-- Whether the character separates the parts of a signature, or those of a type. -/
def isSeparator (c : Char) : Bool := [' ', ',', '<', '>', '&'].contains c

namespace Leaf

variable {l l' : Leaf} {qualified : Bool}

/-- The types that every scope starts with. -/
def builtins : List Leaf := .string :: .handle :: Scalar.all.map .scalar

theorem scalar_mem_builtins (k : Scalar) : scalar k ∈ builtins :=
  .tail _ (.tail _ (List.mem_map_of_mem (Scalar.mem_all k)))

theorem nativeResult_injective (hl : l ∈ builtins) (hl' : l' ∈ builtins)
    (h : l.nativeResult qualified = l'.nativeResult qualified) : l = l' := by
  have hnodup : (builtins.map (nativeResult qualified)).Nodup := by
    cases qualified <;> decide
  exact List.inj_on_of_nodup_map hnodup hl hl' h

/-- The spelling of a builtin type holds none of the characters that separate parts. -/
theorem not_mem_nativeResult (hl : l ∈ builtins) (qualified : Bool) {c : Char}
    (hc : isSeparator c = true) : c ∉ (l.nativeResult qualified).toList := by
  have hall : ∀ l ∈ builtins, (l.nativeResult qualified).toList.all (fun c => !isSeparator c) := by
    cases qualified <;> decide
  intro hmem
  have hnot := List.all_eq_true.1 (hall l hl) c hmem
  rw [hc] at hnot
  cases hnot

end Leaf

namespace Shape

variable {l l' : Leaf} {depth depth' : Nat} {qualified : Bool}

theorem nativeResult_vectors_injective (hl : l ∈ Leaf.builtins) (hl' : l' ∈ Leaf.builtins)
    (h : ((leaf l).vectors depth).nativeResult qualified =
      ((leaf l').vectors depth').nativeResult qualified) : depth = depth' ∧ l = l' := by
  have hbracket : ∀ (l : Leaf) (e : Shape), l ∈ Leaf.builtins →
      l.nativeResult qualified ≠ (vec e).nativeResult qualified := by
    intro l e hl heq
    have hfree : '<' ∉ (l.nativeResult qualified).toList :=
      Leaf.not_mem_nativeResult hl qualified (by decide)
    rw [heq, nativeResult] at hfree
    simp at hfree
  induction depth generalizing depth' with
  | zero =>
    cases depth' with
    | zero => exact ⟨rfl, Leaf.nativeResult_injective hl hl' h⟩
    | succ depth' => exact absurd h (hbracket l _ hl)
  | succ depth ih =>
    cases depth' with
    | zero => exact absurd h.symm (hbracket l' _ hl')
    | succ depth' =>
      rw [vectors, vectors, nativeResult, nativeResult, String.append_left_inj,
        String.append_right_inj] at h
      obtain ⟨rfl, rfl⟩ := ih h
      exact ⟨rfl, rfl⟩

/-- Scalars are passed by value, and everything else as a constant reference. -/
theorem nativeArgument_vectors (hl : l ∈ Leaf.builtins) (depth : Nat) (qualified : Bool) :
    let type := ((leaf l).vectors depth).nativeResult qualified
    (depth = 0 ∧ (∃ k, l = .scalar k) ∧ ((leaf l).vectors depth).nativeArgument qualified = type) ∨
      ((leaf l).vectors depth).nativeArgument qualified = "const " ++ type ++ "&" := by
  intro type
  cases depth with
  | succ depth => exact .inr rfl
  | zero =>
    cases l with
    | scalar k => exact .inl ⟨rfl, ⟨k, rfl⟩, rfl⟩
    | string => exact .inr rfl
    | handle => exact .inr rfl
    | foreign f => simp [Leaf.builtins] at hl

theorem nativeArgument_vectors_injective (hl : l ∈ Leaf.builtins) (hl' : l' ∈ Leaf.builtins)
    (h : ((leaf l).vectors depth).nativeArgument qualified =
      ((leaf l').vectors depth').nativeArgument qualified) : depth = depth' ∧ l = l' := by
  have hmark : ∀ (l : Leaf) (text : String), l ∈ Leaf.builtins →
      l.nativeResult qualified ≠ "const " ++ text ++ "&" := by
    intro l text hl heq
    have hfree : '&' ∉ (l.nativeResult qualified).toList :=
      Leaf.not_mem_nativeResult hl qualified (by decide)
    rw [heq] at hfree
    simp at hfree
  rcases nativeArgument_vectors hl depth qualified with ⟨rfl, -, hvalue⟩ | hreference <;>
    rcases nativeArgument_vectors hl' depth' qualified with ⟨rfl, -, hvalue'⟩ | hreference'
  · rw [hvalue, hvalue'] at h
    exact nativeResult_vectors_injective hl hl' h
  · rw [hvalue, hreference'] at h
    exact absurd h (hmark l _ hl)
  · rw [hreference, hvalue'] at h
    exact absurd h.symm (hmark l' _ hl')
  · rw [hreference, hreference', String.append_left_inj, String.append_right_inj] at h
    exact nativeResult_vectors_injective hl hl' h

/-- What is not in the spelling of the leaf, nor in what is put around it, is not in a parameter. -/
theorem not_mem_nativeArgument {c : Char} (hl : l ∈ Leaf.builtins)
    (hleaf : c ∉ (l.nativeResult qualified).toList)
    (haround : c ∉ ("const " ++ qualifier qualified ++ "hidl_vec<" ++ ">" ++ "&").toList)
    (depth : Nat) : c ∉ (((leaf l).vectors depth).nativeArgument qualified).toList := by
  simp only [String.toList_append, List.mem_append, not_or] at haround
  obtain ⟨⟨⟨⟨hconst, hqualifier⟩, hopening⟩, hclosing⟩, hreference⟩ := haround
  have hresult : c ∉ (((leaf l).vectors depth).nativeResult qualified).toList := by
    induction depth with
    | zero => exact hleaf
    | succ depth ih =>
      rw [vectors, nativeResult]
      simp only [String.toList_append, List.mem_append, not_or]
      exact ⟨⟨⟨hqualifier, hopening⟩, ih⟩, hclosing⟩
  rcases nativeArgument_vectors hl depth qualified with ⟨-, -, hvalue⟩ | heq
  · rwa [hvalue]
  · rw [heq]
    simp only [String.toList_append, List.mem_append, not_or]
    exact ⟨⟨hconst, hresult⟩, hreference⟩

theorem not_comma_mem_nativeArgument (hl : l ∈ Leaf.builtins) (depth : Nat) (qualified : Bool) :
    ',' ∉ (((leaf l).vectors depth).nativeArgument qualified).toList :=
  not_mem_nativeArgument hl (Leaf.not_mem_nativeResult hl qualified (by decide))
    (by cases qualified <;> decide) depth

/-- No builtin type is spelled like the type of a callback. -/
theorem nativeArgument_ne_callback (hl : l ∈ Leaf.builtins) (depth : Nat) (qualified : Bool)
    (name : String) : ((leaf l).vectors depth).nativeArgument qualified ≠ name ++ "_cb" := by
  intro heq
  have hlast : (((leaf l).vectors depth).nativeArgument qualified).toList.getLast? = some 'b' := by
    rw [heq]
    simp
  rcases nativeArgument_vectors hl depth qualified with ⟨rfl, ⟨k, rfl⟩, hvalue⟩ | hreference
  · have hscalars : ∀ k ∈ Scalar.all, k.native.toList.getLast? ≠ some 'b' := by decide
    rw [hvalue] at hlast
    exact hscalars k (Scalar.mem_all k) hlast
  · rw [hreference, String.toList_append, List.getLast?_append] at hlast
    cases hlast

end Shape

namespace Method

variable {style : NativeStyle} {s s' : Scope} {m m' : Method} {text : String}

/-- The names are identifiers, and the types are resolved to builtin ones. -/
structure Plain (s : Scope) (m : Method) : Prop where
  name : isIdentifier m.name = true
  argNames : ∀ v ∈ m.args, isIdentifier v.name = true
  types : ∀ v ∈ m.args ++ m.results, ∃ depth l, s.Resolved v.type depth l ∧ l ∈ Leaf.builtins

/-- The parameter for the callback, if there is one. -/
def callbackPart (s : Scope) (m : Method) : List String :=
  match (m.signature s).delivery with
  | .callback => [m.name ++ "_cb _hidl_cb"]
  | _ => []

theorem exists_written (style : NativeStyle) (s : Scope) (m : Method) :
    ∃ result, Written style s m (Native.returned style (m.signature s))
      (m.parameters style s ++ m.callbackPart s) result := by
  unfold Native.returned callbackPart
  cases hd : (m.signature s).delivery with
  | direct result =>
    rw [List.append_nil]
    exact ⟨_, written_of_direct style hd⟩
  | nothing =>
    rw [List.append_nil]
    exact ⟨_, written_of_nothing style hd⟩
  | callback => exact ⟨_, written_of_callback style hd⟩

/-- A result that is returned directly is a scalar. -/
theorem Plain.returned_cases (hm : m.Plain s) (style : NativeStyle) :
    (∃ k, (m.signature s).delivery.direct?.map Param.shape = some (.leaf (.scalar k)) ∧
        Native.returned style (m.signature s) = k.native) ∨
      (m.signature s).delivery.direct?.map Param.shape = none ∧
        Native.returned style (m.signature s) = "void" := by
  obtain ⟨d, hd⟩ := exists_hands s m
  unfold Native.returned
  rw [hd.delivery_eq]
  cases hd with
  | nothing => exact .inr ⟨rfl, rfl⟩
  | callback => exact .inr ⟨rfl, rfl⟩
  | @direct v hresults hreturnable =>
    obtain ⟨depth, l, hresolved, hbuiltin⟩ := hm.types v (by simp [hresults])
    have hshape := hresolved.shape_eq
    rw [hshape] at hreturnable
    obtain ⟨rfl, hl⟩ := (Shape.spelled_vectors l depth).returnable_iff.1 hreturnable
    cases l with
    | scalar k =>
      refine .inl ⟨k, congrArg some hshape, ?_⟩
      change (s.shape v.type).nativeResult _ = _
      rw [hshape]
      rfl
    | string => exact absurd hl Bool.false_ne_true
    | handle => exact absurd hl Bool.false_ne_true
    | foreign f => simp [Leaf.builtins] at hbuiltin

theorem Plain.not_mem_returned (hm : m.Plain s) (style : NativeStyle) :
    '>' ∉ (Native.returned style (m.signature s)).toList := by
  rcases hm.returned_cases style with ⟨k, -, hk⟩ | ⟨-, hvoid⟩
  · rw [hk]
    exact Leaf.not_mem_nativeResult (Leaf.scalar_mem_builtins k) style.qualified (by decide)
  · rw [hvoid]
    decide

/-- An argument is written as one parameter, which is never that of a callback. -/
theorem Plain.parameter (hm : m.Plain s) (h : text ∈ m.parameters style s) :
    ',' ∉ text.toList ∧ ∀ name : String, text ≠ name ++ "_cb _hidl_cb" := by
  obtain ⟨v, hv, rfl⟩ := List.mem_map.1 h
  obtain ⟨depth, l, hl, hbuiltin⟩ := hm.types v (List.mem_append_left _ hv)
  have hname := hm.argNames v hv
  rw [hl.shape_eq]
  refine ⟨?_, fun name heq => ?_⟩
  · have htype := Shape.not_comma_mem_nativeArgument hbuiltin depth style.qualified
    have hcomma : ',' ∉ v.name.toList := not_mem_of_isIdentifier hname (by decide)
    simp [htype, hcomma]
  · have hspaced : name ++ "_cb _hidl_cb" = name ++ "_cb" ++ " " ++ "_hidl_cb" := by
      simp only [String.append_assoc]
      rfl
    rw [hspaced] at heq
    obtain ⟨htype, -⟩ := eq_and_eq_of_append_space_eq (not_mem_of_isIdentifier hname (by decide))
      (by decide) heq
    exact Shape.nativeArgument_ne_callback hbuiltin depth style.qualified name htype

theorem Plain.parts (hm : m.Plain s) (style : NativeStyle) :
    ∀ part ∈ m.parameters style s ++ m.callbackPart s, part ≠ "" ∧ ',' ∉ part.toList := by
  intro part hpart
  rcases List.mem_append.1 hpart with hpart | hpart
  · exact ⟨ne_empty_of_mem_parameters hpart, (hm.parameter hpart).1⟩
  · unfold callbackPart at hpart
    cases hd : (m.signature s).delivery with
    | callback =>
      rw [hd] at hpart
      have hcomma : ',' ∉ m.name.toList := not_mem_of_isIdentifier hm.name (by decide)
      rw [List.mem_singleton.1 hpart]
      simp [String.append_eq_empty_iff, hcomma]
    | direct result =>
      rw [hd] at hpart
      cases hpart
    | nothing =>
      rw [hd] at hpart
      cases hpart

/-- What is written for the results, the name and the parameters can be cut out of a signature. -/
theorem Plain.eq_of_output_eq {k : Sink} (hm : m.Plain s) (hm' : m'.Plain s')
    (h : ((Native.signature style (m.signature s)).run k).output =
      ((Native.signature style (m'.signature s')).run k).output) :
    Native.returned style (m.signature s) = Native.returned style (m'.signature s') ∧
      m.name = m'.name ∧
      m.parameters style s ++ m.callbackPart s = m'.parameters style s' ++ m'.callbackPart s' := by
  obtain ⟨result, hwritten⟩ := exists_written style s m
  obtain ⟨result', hwritten'⟩ := exists_written style s' m'
  rw [hwritten.signature_run, hwritten'.signature_run] at h
  have htext := congrArg String.toList (Sink.push_injective h)
  have hreturns : "> ".toList = ['>', ' '] := by decide
  have hopens : "(".toList = ['('] := by decide
  simp only [String.toList_append, List.append_assoc, List.append_cancel_left_eq, hreturns, hopens,
    List.cons_append, List.nil_append] at htext
  obtain ⟨hreturned, hrest⟩ :=
    eq_and_eq_of_append_cons_eq (hm.not_mem_returned style) (hm'.not_mem_returned style) htext
  have hopening : '(' ∉ m.name.toList := not_mem_of_isIdentifier hm.name (by decide)
  have hopening' : '(' ∉ m'.name.toList := not_mem_of_isIdentifier hm'.name (by decide)
  obtain ⟨hname, hlist⟩ := eq_and_eq_of_append_cons_eq hopening hopening'
    (List.append_cancel_left (List.cons.inj hrest).2)
  have hparameters := String.toList_inj.1 (List.append_cancel_right hlist)
  exact ⟨String.toList_inj.1 hreturned, String.toList_inj.1 hname,
    eq_of_intercalate_eq (hm.parts style) (hm'.parts style) hparameters⟩

theorem callbackPart_cases (s : Scope) (m : Method) :
    ((m.signature s).delivery = .callback ∧ m.callbackPart s = [m.name ++ "_cb _hidl_cb"]) ∨
      (m.signature s).delivery ≠ .callback ∧ m.callbackPart s = [] := by
  unfold callbackPart
  cases (m.signature s).delivery with
  | callback => exact .inl ⟨rfl, rfl⟩
  | direct result => exact .inr ⟨nofun, rfl⟩
  | nothing => exact .inr ⟨nofun, rfl⟩

/-- A callback is told from an ordinary parameter. -/
theorem Plain.parameters_eq (hm : m.Plain s) (hm' : m'.Plain s')
    (h : m.parameters style s ++ m.callbackPart s =
      m'.parameters style s' ++ m'.callbackPart s') :
    m.parameters style s = m'.parameters style s' ∧
      ((m.signature s).delivery = .callback ↔ (m'.signature s').delivery = .callback) := by
  rcases callbackPart_cases s m with ⟨hd, hpart⟩ | ⟨hd, hpart⟩ <;>
    rcases callbackPart_cases s' m' with ⟨hd', hpart'⟩ | ⟨hd', hpart'⟩
  · rw [hpart, hpart'] at h
    exact ⟨(List.append_inj' h rfl).1, iff_of_true hd hd'⟩
  · rw [hpart, hpart', List.append_nil] at h
    have hmem : m.name ++ "_cb _hidl_cb" ∈ m'.parameters style s' := by
      rw [← h]
      exact List.mem_append_right _ (List.mem_singleton_self _)
    exact absurd rfl ((hm'.parameter hmem).2 m.name)
  · rw [hpart, hpart', List.append_nil] at h
    have hmem : m'.name ++ "_cb _hidl_cb" ∈ m.parameters style s := by
      rw [h]
      exact List.mem_append_right _ (List.mem_singleton_self _)
    exact absurd rfl ((hm.parameter hmem).2 m'.name)
  · rw [hpart, hpart', List.append_nil, List.append_nil] at h
    exact ⟨h, iff_of_false hd hd'⟩

/-- The variables have one name, and their types are resolved to the same. -/
def SameVar (s s' : Scope) (v v' : Var) : Prop :=
  v.name = v'.name ∧ ∃ depth l, s.Resolved v.type depth l ∧ s'.Resolved v'.type depth l

/-- The same parameters come from arguments that are the same. -/
theorem Plain.args_eq (hm : m.Plain s) (hm' : m'.Plain s')
    (h : m.parameters style s = m'.parameters style s') :
    List.Forall₂ (SameVar s s') m.args m'.args := by
  have htexts : List.Forall₂ Eq (m.parameters style s) (m'.parameters style s') := by
    rw [List.forall₂_eq_eq_eq, h]
  rw [parameters, parameters, List.forall₂_map_left_iff, List.forall₂_map_right_iff] at htexts
  refine List.forall₂_iff_zip.2 ⟨htexts.length_eq, fun {v v'} hmem => ?_⟩
  obtain ⟨hv, hv'⟩ := List.of_mem_zip hmem
  obtain ⟨depth, l, hl, hbuiltin⟩ := hm.types v (List.mem_append_left _ hv)
  obtain ⟨depth', l', hl', hbuiltin'⟩ := hm'.types v' (List.mem_append_left _ hv')
  obtain ⟨htype, hname⟩ := eq_and_eq_of_append_space_eq
    (not_mem_of_isIdentifier (hm.argNames v hv) (by decide))
    (not_mem_of_isIdentifier (hm'.argNames v' hv') (by decide)) (List.forall₂_zip htexts hmem)
  rw [hl.shape_eq, hl'.shape_eq] at htype
  obtain ⟨rfl, rfl⟩ := Shape.nativeArgument_vectors_injective hbuiltin hbuiltin' htype
  exact ⟨hname, depth, l, hl, hl'⟩

/-- What is returned directly shows in the return type. -/
theorem Plain.direct_eq (hm : m.Plain s) (hm' : m'.Plain s')
    (h : Native.returned style (m.signature s) = Native.returned style (m'.signature s')) :
    (m.signature s).delivery.direct?.map Param.shape =
      (m'.signature s').delivery.direct?.map Param.shape := by
  have hvoid : ∀ k ∈ Scalar.all, k.native ≠ "void" := by decide
  rcases hm.returned_cases style with ⟨k, hshape, hk⟩ | ⟨hshape, hk⟩ <;>
    rcases hm'.returned_cases style with ⟨k', hshape', hk'⟩ | ⟨hshape', hk'⟩ <;>
    rw [hk, hk'] at h
  · have hnative : (Leaf.scalar k).nativeResult true = (Leaf.scalar k').nativeResult true := h
    have hleaf := Leaf.nativeResult_injective (Leaf.scalar_mem_builtins k)
      (Leaf.scalar_mem_builtins k') hnative
    rw [hshape, hshape', hleaf]
  · exact absurd h (hvoid k (Scalar.mem_all k))
  · exact absurd h.symm (hvoid k' (Scalar.mem_all k'))
  · rw [hshape, hshape']

/-- Where two methods have the same signature text, in whatever style and after whatever text, they
have the same name and the same arguments, and hand over their results alike. No argument is written
as a callback or as more than one parameter. -/
theorem eq_of_signature_output_eq {style : NativeStyle} {s s' : Scope} {m m' : Method} {k : Sink}
    (hm : m.Plain s) (hm' : m'.Plain s')
    (h : ((Native.signature style (m.signature s)).run k).output =
      ((Native.signature style (m'.signature s')).run k).output) :
    m.name = m'.name ∧ List.Forall₂ (SameVar s s') m.args m'.args ∧
      (m.signature s).delivery.direct?.map Param.shape =
        (m'.signature s').delivery.direct?.map Param.shape ∧
      ((m.signature s).delivery = .callback ↔ (m'.signature s').delivery = .callback) ∧
      ∀ text ∈ m.parameters style s,
        ',' ∉ text.toList ∧ ∀ name : String, text ≠ name ++ "_cb _hidl_cb" := by
  obtain ⟨hreturned, hname, hparts⟩ := hm.eq_of_output_eq hm' h
  obtain ⟨hparameters, hcallback⟩ := hm.parameters_eq hm' hparts
  exact ⟨hname, hm.args_eq hm' hparameters, hm.direct_eq hm' hreturned, hcallback,
    fun text htext => hm.parameter htext⟩

/-- An alias in one scope and the type itself in another, and results that only the callback has. -/
theorem same_args_of_alias :
    let flags : Ty := .vec (.ref ⟨0, "Flag", .empty⟩)
    let s := ((Scope.initial.bind "Flag" (.scalar .bool)).evaluate flags).2
    let m : Method := ⟨⟨1, "set", ⟨[⟨"flags", flags, .empty⟩], by simp⟩,
      ⟨[⟨"old", .vec flags, .empty⟩], by simp⟩, false, []⟩, .empty, .ordinary none⟩
    let m' : Method := ⟨⟨2, "set", ⟨[⟨"flags", .vec (.scalar .bool), .empty⟩], by simp⟩,
      ⟨[⟨"status", .scalar .int8, .empty⟩, ⟨"fd", .handle, .empty⟩], by simp⟩, false, []⟩,
      .empty, .ordinary none⟩
    let style : NativeStyle := .header
    (Native.signature style (m.signature s)).toText =
        (Native.signature style (m'.signature .initial)).toText ∧
      List.Forall₂ (SameVar s .initial) m.args m'.args ∧
      ((m.signature s).delivery = .callback ↔ (m'.signature .initial).delivery = .callback) := by
  intro flags s m m' style
  have hflags : s.Resolved flags 1 (.scalar .bool) := ⟨rfl, _, .vec (.hop rfl (.leaf _))⟩
  have hold : s.Resolved (.vec flags) 2 (.scalar .bool) :=
    ⟨rfl, _, .vec (.vec (.hop rfl (.leaf _)))⟩
  have hm : m.Plain s := by
    refine ⟨by decide, fun v hv => ?_, fun v hv => ?_⟩
    · rw [List.mem_singleton.1 hv]
      decide
    · rcases List.mem_pair.1 hv with rfl | rfl
      · exact ⟨1, _, hflags, Leaf.scalar_mem_builtins .bool⟩
      · exact ⟨2, _, hold, Leaf.scalar_mem_builtins .bool⟩
  have hm' : m'.Plain .initial := by
    refine ⟨by decide, fun v hv => ?_, fun v hv => ?_⟩
    · rw [List.mem_singleton.1 hv]
      decide
    · change v ∈ [_, _, _] at hv
      simp only [List.mem_cons, List.not_mem_nil, or_false] at hv
      rcases hv with rfl | rfl | rfl
      · exact ⟨1, .scalar .bool, ⟨rfl, _, .vec (.leaf _)⟩, Leaf.scalar_mem_builtins .bool⟩
      · exact ⟨0, .scalar .int8, ⟨rfl, _, .leaf _⟩, Leaf.scalar_mem_builtins .int8⟩
      · exact ⟨0, .handle, ⟨rfl, _, .leaf _⟩, .tail _ (.head _)⟩
  have htext : (Native.signature style (m.signature s)).toText =
      (Native.signature style (m'.signature .initial)).toText := by decide
  obtain ⟨-, hargs, -, hcallback, -⟩ := eq_of_signature_output_eq hm hm' htext
  exact ⟨htext, hargs, hcallback⟩

end Method
end Idl
