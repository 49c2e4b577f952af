import Idl.Proofs.Course
import Idl.Proofs.Frozen
import Idl.Proofs.Handover
import Idl.Proofs.Spelling
import Idl.Proofs.Steady
import Mathlib.Data.List.Nodup

/-!
# Names of native parameters

The arguments of a method have names of their own. A callback is one parameter more, which has the
same name in every method, and no list of arguments keeps this name free. So the parameters of an
accepted method have different names unless an argument has taken the name of the callback and the
method needs one.
-/

namespace Idl.Method

variable {s : Scope} {m : Method}

/-- The arguments, each with its native type and its name. -/
def nativeArguments (style : NativeStyle) (s : Scope) (m : Method) : List (String × String) :=
  m.args.map fun v => ((s.shape v.type).nativeArgument style.qualified, v.name)

def nativeParameters (style : NativeStyle) (s : Scope) (m : Method) : List (String × String) :=
  m.nativeArguments style s ++
    match (m.signature s).delivery with
    | .callback => [(m.name ++ "_cb", Native.callbackName)]
    | _ => []

/-- There is no result, or a single one of a type that can be returned. -/
def NeedsNoCallback (s : Scope) (m : Method) : Prop :=
  m.results = [] ∨ ∃ v l, m.results = [v] ∧ s.Resolved v.type 0 l ∧ l.returnable = true

theorem names_nativeArguments (style : NativeStyle) (s : Scope) (m : Method) :
    (m.nativeArguments style s).map Prod.snd = m.args.map Var.name := List.map_map

theorem nativeParameters_of_callback (style : NativeStyle)
    (h : (m.signature s).delivery = .callback) : m.nativeParameters style s =
      m.nativeArguments style s ++ [(m.name ++ "_cb", Native.callbackName)] := by
  rw [nativeParameters, h]

theorem nativeParameters_of_ne (style : NativeStyle)
    (h : (m.signature s).delivery ≠ .callback) :
    m.nativeParameters style s = m.nativeArguments style s := by
  unfold nativeParameters
  cases hd : (m.signature s).delivery with
  | callback => exact absurd hd h
  | direct result => exact List.append_nil _
  | nothing => exact List.append_nil _

/-- The parameters are written as pairs of a type and a name. -/
theorem args_run_eq_push (style : NativeStyle) (s : Scope) (m : Method) (k : Sink) :
    (Native.args style (m.signature s)).run k = k.push
      (", ".intercalate ((m.nativeParameters style s).map fun p => p.1 ++ " " ++ p.2)) := by
  have hargs : (m.nativeArguments style s).map (fun p => p.1 ++ " " ++ p.2) =
      m.parameters style s := List.map_map
  by_cases hd : (m.signature s).delivery = .callback
  · have hcallback : m.name ++ "_cb" ++ " " ++ Native.callbackName = m.name ++ "_cb _hidl_cb" := by
      simp only [String.append_assoc]
      rfl
    rw [callback_args_run hd, nativeParameters_of_callback style hd, List.map_append, hargs,
      List.map_singleton, hcallback]
  · rw [plain_args_run hd, nativeParameters_of_ne style hd, hargs]

/-- Once the types are resolved, they say whether there is a callback. -/
theorem Settled.delivery_eq_callback_iff (h : m.Settled s) :
    (m.signature s).delivery = .callback ↔ ¬ m.NeedsNoCallback s := by
  obtain ⟨d, hd⟩ := exists_hands s m
  rw [hd.delivery_eq]
  cases hd with
  | nothing hresults =>
    refine iff_of_false (fun h => ?_) (not_not.2 (.inl hresults))
    cases h
  | @direct v hresults hreturnable =>
    obtain ⟨depth, l, hl⟩ := h (.result v) (by simp [nodes, hresults])
    rw [hl.shape_eq, (Shape.spelled_vectors l depth).returnable_iff] at hreturnable
    obtain ⟨rfl, hleaf⟩ := hreturnable
    refine iff_of_false (fun h => ?_) (not_not.2 (.inr ⟨v, l, hresults, hl, hleaf⟩))
    cases h
  | callback hne hreturnable =>
    refine iff_of_true rfl ?_
    rintro (hresults | ⟨v, l, hresults, hl, hleaf⟩)
    · exact hne hresults
    · have hshape : (s.shape v.type).returnable = true := by
        rw [hl.shape_eq]
        exact hleaf
      rw [hreturnable v hresults] at hshape
      cases hshape

theorem settled_of_analyze_eq_ok (h : (m.analyze s).verdict = .ok ()) :
    m.Settled (m.analyze s).scope := by
  rw [scope_analyze]
  exact settled_of_evaluate_eq_ok (of_analyze_eq_ok h).1

/-- The parameters of an accepted method are its arguments, and the callback if one is needed. They
have different names, except that an argument may have the name of the callback. -/
theorem nodup_parameter_names_iff (hok : (m.analyze s).verdict = .ok ()) (style : NativeStyle) :
    let s' := (m.analyze s).scope
    let ps := m.nativeParameters style s'
    (∀ k : Sink, (Native.args style (m.signature s')).run k =
        k.push (", ".intercalate (ps.map fun p => p.1 ++ " " ++ p.2))) ∧
      (m.NeedsNoCallback s' → ps.map Prod.snd = m.args.map Var.name) ∧
      (¬ m.NeedsNoCallback s' → ps.map Prod.snd = m.args.map Var.name ++ [Native.callbackName]) ∧
      ((ps.map Prod.snd).Nodup ↔
        ((∃ v ∈ m.args, v.name = Native.callbackName) → m.NeedsNoCallback s')) := by
  intro s' ps
  have hsettled : m.Settled s' := settled_of_analyze_eq_ok hok
  have hplain : m.NeedsNoCallback s' → ps.map Prod.snd = m.args.map Var.name := by
    intro h
    have hd : (m.signature s').delivery ≠ .callback :=
      fun hd => hsettled.delivery_eq_callback_iff.1 hd h
    rw [← names_nativeArguments style s' m, ← nativeParameters_of_ne style hd]
  have hcallback : ¬ m.NeedsNoCallback s' →
      ps.map Prod.snd = m.args.map Var.name ++ [Native.callbackName] := by
    intro h
    have hd := hsettled.delivery_eq_callback_iff.2 h
    change (m.nativeParameters style s').map Prod.snd = _
    rw [nativeParameters_of_callback style hd, List.map_append, names_nativeArguments,
      List.map_singleton]
  have hargs : (m.args.map Var.name).Nodup := m.declaration.args.nodup
  refine ⟨args_run_eq_push style s' m, hplain, hcallback, ?_⟩
  by_cases h : m.NeedsNoCallback s'
  · rw [hplain h]
    exact iff_of_true hargs fun _ => h
  · rw [hcallback h, ← List.concat_eq_append, List.nodup_concat, List.mem_map]
    exact ⟨fun hnodup htaken => absurd htaken hnodup.1,
      fun hfree => ⟨fun htaken => h (hfree htaken), hargs⟩⟩

/-- A status can be returned, so an argument may have the name that a callback would have. -/
theorem nodup_parameter_names_of_status :
    let s := Scope.initial.bind "Status" (.scalar .uint32)
    let m : Method := ⟨⟨1, "poll", ⟨[⟨"_hidl_cb", .scalar .int32, .empty⟩], by simp⟩,
      ⟨[⟨"code", .ref ⟨0, "Status", .empty⟩, .empty⟩], by simp⟩, false, []⟩, .empty, .ordinary none⟩
    let ps := m.nativeParameters .header (m.analyze s).scope
    (m.analyze s).verdict = .ok () ∧ ps = [("int32_t", "_hidl_cb")] ∧ (ps.map Prod.snd).Nodup := by
  intro s m ps
  have hok : (m.analyze s).verdict = .ok () := rfl
  obtain ⟨-, -, -, hnodup⟩ := nodup_parameter_names_iff hok .header
  refine ⟨hok, rfl, hnodup.2 fun _ => ?_⟩
  exact .inr ⟨_, .scalar .uint32, rfl, ⟨rfl, _, .hop rfl (.leaf _)⟩, rfl⟩

/-- An accepted method with two parameters of the same name. -/
theorem repeated_parameter_name :
    let m : Method := ⟨⟨0, "f", ⟨[⟨"_hidl_cb", .scalar .int32, .empty⟩], by simp⟩,
      ⟨[⟨"x", .scalar .int32, .empty⟩, ⟨"y", .scalar .int32, .empty⟩], by simp⟩, false, []⟩,
      .empty, .ordinary none⟩
    let s' := (m.analyze .initial).scope
    (m.analyze .initial).verdict = .ok () ∧
      ¬ ((m.nativeParameters .header s').map Prod.snd).Nodup ∧
      (Native.signature .header (m.signature s')).toText =
        "Return<void> f(int32_t _hidl_cb, f_cb _hidl_cb)" := by
  intro m s'
  refine ⟨rfl, ?_, by decide⟩
  have hnames : (m.nativeParameters .header s').map Prod.snd = ["_hidl_cb", "_hidl_cb"] := rfl
  rw [hnames]
  decide

end Idl.Method
