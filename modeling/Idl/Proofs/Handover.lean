import Idl.Emit.Emitter
import Idl.Proofs.Replay

/-!
# How results reach the caller

A native method hands over its results in one of three ways: by its return value, not at all, or
through a callback. Which way it is depends on the number of results and, if there is one, on what
its type has been resolved to. It shows in the return type, in the parameters, in the generic body
and in whether a call takes no parameters at all, and these always show the same.
-/

namespace Idl

theorem replay_eq_nil_iff {width : Nat} {start : Bool} {es : List (Char × Nat)} :
    replay width start es = [] ↔ es = [] := by
  cases es with
  | nil => exact ⟨fun _ => rfl, fun _ => rfl⟩
  | cons e es => simp [replay]

/-- A fresh sink stays empty only under empty text. -/
theorem Sink.output_push_start_eq_empty_iff {width : Nat} {text : String} :
    ((Sink.start width).push text).output = "" ↔ text = "" := by
  have houtput : ((Sink.start width).push text).output =
      String.ofList (replay width true (text.toList.map fun c => (c, 0))) := by
    rw [push_eq_write]
    exact String.empty_append
  rw [houtput, String.ofList_eq_empty_iff, replay_eq_nil_iff, List.map_eq_nil_iff,
    String.toList_eq_nil_iff]

/-- Documents that only push texts are joined to one that pushes the joined text. -/
theorem Doc.run_join {α : Type} {doc : α → Doc} {content : α → String} {items : List α}
    (h : ∀ a ∈ items, ∀ k : Sink, (doc a).run k = k.push (content a)) (separator : String)
    (k : Sink) : (join separator (items.map doc)).run k =
      k.push (separator.intercalate (items.map content)) := by
  induction items generalizing k with
  | nil => exact (k.push_empty).symm
  | cons first rest ih =>
    obtain ⟨hfirst, hrest⟩ := List.forall_mem_cons.1 h
    cases rest with
    | nil =>
      rw [List.map_singleton, List.map_singleton, String.intercalate_singleton]
      exact hfirst k
    | cons next rest =>
      have hjoin : (join separator ((first :: next :: rest).map doc)).run k =
          (join separator ((next :: rest).map doc)).run (((doc first).run k).push separator) := rfl
      rw [hjoin, ih hrest, hfirst, ← Sink.push_append, ← Sink.push_append]
      simp only [List.map_cons, String.intercalate_cons_cons, String.append_assoc]

theorem Doc.run_join_between {α : Type} {doc : α → Doc} {content : α → String} {items : List α}
    (h : ∀ a ∈ items, ∀ k : Sink, (doc a).run k = k.push (content a))
    (separator opening closing : String) (k : Sink) :
    (text opening ++ join separator (items.map doc) ++ text closing).run k =
      k.push (opening ++ separator.intercalate (items.map content) ++ closing) := by
  change ((join separator (items.map doc)).run (k.push opening)).push closing = _
  rw [run_join h, ← Sink.push_append, ← Sink.push_append, String.append_assoc]

/-- Texts that are not empty are joined to one that is not. -/
theorem intercalate_eq_empty_iff {separator : String} {texts : List String}
    (h : ∀ text ∈ texts, text ≠ "") : separator.intercalate texts = "" ↔ texts = [] := by
  cases texts with
  | nil => exact ⟨fun _ => rfl, fun _ => String.intercalate_nil⟩
  | cons first rest =>
    have hfirst := h first List.mem_cons_self
    cases rest with
    | nil => simp [hfirst]
    | cons next rest => simp [String.append_eq_empty_iff, hfirst]

namespace Method

variable {style : NativeStyle} {s : Scope} {m : Method} {d : Delivery}

/-- The ways of handing over results, each with the results that call for it. -/
inductive Hands (s : Scope) (m : Method) : Delivery → Prop
  | direct {v : Var} :
    m.results = [v] → (s.shape v.type).returnable = true → Hands s m (.direct (v.param s))
  | nothing : m.results = [] → Hands s m .nothing
  | callback :
    m.results ≠ [] → (∀ v, m.results = [v] → (s.shape v.type).returnable = false) →
    Hands s m .callback

theorem Hands.delivery_eq (h : Hands s m d) : (m.signature s).delivery = d := by
  cases h with
  | direct hresults hreturnable =>
    change Delivery.ofResults (m.results.map (Var.param s)) = _
    rw [hresults]
    exact if_pos hreturnable
  | nothing hresults =>
    change Delivery.ofResults (m.results.map (Var.param s)) = _
    rw [hresults]
    rfl
  | callback hne hreturnable =>
    change Delivery.ofResults (m.results.map (Var.param s)) = _
    match hresults : m.results with
    | [] => exact absurd hresults hne
    | [v] => exact if_neg (Bool.eq_false_iff.1 (hreturnable v hresults))
    | _ :: _ :: _ => rfl

theorem exists_hands (s : Scope) (m : Method) : ∃ d, Hands s m d := by
  by_cases hne : m.results = []
  · exact ⟨_, .nothing hne⟩
  by_cases hdirect : ∃ v, m.results = [v] ∧ (s.shape v.type).returnable = true
  · obtain ⟨v, hresults, hreturnable⟩ := hdirect
    exact ⟨_, .direct hresults hreturnable⟩
  · refine ⟨_, .callback hne fun v hresults => ?_⟩
    exact Bool.eq_false_iff.2 fun hreturnable => hdirect ⟨v, hresults, hreturnable⟩

/-- The arguments as native parameters. -/
def parameters (style : NativeStyle) (s : Scope) (m : Method) : List String :=
  m.args.map fun v => (s.shape v.type).nativeArgument style.qualified ++ " " ++ v.name

theorem ne_empty_of_mem_parameters {text : String} (h : text ∈ m.parameters style s) :
    text ≠ "" := by
  obtain ⟨v, -, rfl⟩ := List.mem_map.1 h
  simp [String.append_eq_empty_iff]

/-- The native text of a method that returns `returned`, takes the parameters, and has the body
`return result;` if it brings none. -/
structure Written (style : NativeStyle) (s : Scope) (m : Method) (returned : String)
    (parameters : List String) (result : String) : Prop where
  returnType_run : ∀ k : Sink, (Native.returnType style (m.signature s)).run k =
    k.push (qualifier style.qualified ++ "Return<" ++ returned ++ "> ")
  args_run : ∀ k : Sink, (Native.args style (m.signature s)).run k =
    k.push (", ".intercalate parameters)
  signature_run : ∀ k : Sink, (Native.signature style (m.signature s)).run k =
    k.push (qualifier style.qualified ++ "Return<" ++ returned ++ "> " ++ Native.owner style ++
      m.name ++ "(" ++ ", ".intercalate parameters ++ ")")
  body_run : ∀ k : Sink, (Native.fallbackBody style (m.signature s)).run k =
    k.push ("return " ++ result ++ ";\n")
  takesNothing_iff : (m.signature s).takesNothing = true ↔ parameters = []

theorem params_run (style : NativeStyle) (s : Scope) (m : Method) (k : Sink) :
    (Native.params style (m.signature s).args).run k =
      k.push (", ".intercalate (m.parameters style s)) := by
  change (Doc.join ", " ((m.args.map (Var.param s)).map _)).run k = _
  rw [List.map_map]
  exact Doc.run_join (fun _ _ _ => rfl) ", " k

/-- The callback stands last, after a comma if there are arguments. -/
theorem callback_args_run (h : (m.signature s).delivery = .callback) (k : Sink) :
    (Native.args style (m.signature s)).run k =
      k.push (", ".intercalate (m.parameters style s ++ [m.name ++ "_cb _hidl_cb"])) := by
  have hcallback : m.name ++ "_cb " ++ Native.callbackName = m.name ++ "_cb _hidl_cb" :=
    String.append_assoc
  have hargs : (Native.args style (m.signature s)).run k =
      ((k.push (", ".intercalate (m.parameters style s))).push
        (if (m.signature s).args.isEmpty then "" else ", ")).push (m.name ++ "_cb _hidl_cb") := by
    rw [Native.args, h, ← params_run, ← hcallback]
    rfl
  rw [hargs]
  by_cases hne : m.args = []
  · have hparameters : m.parameters style s = [] := by rw [parameters, hne, List.map_nil]
    have hempty : (m.signature s).args.isEmpty = true := by simp [signature, hne]
    rw [if_pos hempty, hparameters]
    simp
  · have hparameters : m.parameters style s ≠ [] := by simpa [parameters] using hne
    have hempty : ¬ (m.signature s).args.isEmpty = true := by simpa [signature] using hne
    rw [if_neg hempty, String.intercalate_append_of_ne_nil hparameters (List.cons_ne_nil _ _),
      String.intercalate_singleton, ← Sink.push_append, ← Sink.push_append, String.append_assoc]

theorem plain_args_run (h : (m.signature s).delivery ≠ .callback) (k : Sink) :
    (Native.args style (m.signature s)).run k =
      k.push (", ".intercalate (m.parameters style s)) := by
  rw [← params_run, Native.args]
  cases hd : (m.signature s).delivery with
  | callback => exact absurd hd h
  | direct result => rfl
  | nothing => rfl

theorem takesNothing_iff_of_ne (h : (m.signature s).delivery ≠ .callback) :
    (m.signature s).takesNothing = true ↔ m.parameters style s = [] := by
  have hargs : (m.signature s).args.isEmpty = true ↔ m.parameters style s = [] := by
    simp [signature, parameters]
  rw [← hargs, Signature.takesNothing]
  cases hd : (m.signature s).delivery with
  | callback => exact absurd hd h
  | direct result => rfl
  | nothing => rfl

/-- The return type, the parameters and the body make up all that is written. -/
theorem written_of {returned result : String} {parameters : List String}
    (hreturned : Native.returned style (m.signature s) = returned)
    (hargs : ∀ k : Sink,
      (Native.args style (m.signature s)).run k = k.push (", ".intercalate parameters))
    (hbody : Native.fallbackBody style (m.signature s) = .text ("return " ++ result ++ ";\n"))
    (htakes : (m.signature s).takesNothing = true ↔ parameters = []) :
    Written style s m returned parameters result := by
  subst hreturned
  refine ⟨fun k => rfl, hargs, fun k => ?_, fun k => by rw [hbody]; rfl, htakes⟩
  change ((Native.args style (m.signature s)).run
    ((k.push (qualifier style.qualified ++ "Return<" ++ Native.returned style (m.signature s) ++
      "> ")).push (Native.owner style ++ m.name ++ "("))).push ")" = _
  rw [hargs, ← Sink.push_append, ← Sink.push_append, ← Sink.push_append]
  simp only [String.append_assoc]

theorem written_of_direct (style : NativeStyle) {result : Param}
    (h : (m.signature s).delivery = .direct result) :
    let type := result.shape.nativeResult style.qualified
    Written style s m type (m.parameters style s) (type ++ " \x7b\x7d") := by
  intro type
  have hne : (m.signature s).delivery ≠ .callback := by rw [h]; exact nofun
  refine written_of (by rw [Native.returned, h]) (plain_args_run hne) ?_
    (takesNothing_iff_of_ne hne)
  rw [Native.fallbackBody, h]
  simp only [String.append_assoc, type]
  rfl

theorem written_of_nothing (style : NativeStyle) (h : (m.signature s).delivery = .nothing) :
    Written style s m "void" (m.parameters style s) "::android::hardware::Void()" := by
  have hne : (m.signature s).delivery ≠ .callback := by rw [h]; exact nofun
  refine written_of (by rw [Native.returned, h]) (plain_args_run hne) ?_
    (takesNothing_iff_of_ne hne)
  rw [Native.fallbackBody, h]
  rfl

theorem written_of_callback (style : NativeStyle) (h : (m.signature s).delivery = .callback) :
    Written style s m "void" (m.parameters style s ++ [m.name ++ "_cb _hidl_cb"])
      "::android::hardware::Void()" := by
  refine written_of (by rw [Native.returned, h]) (callback_args_run h) ?_ ?_
  · rw [Native.fallbackBody, h]
    rfl
  · rw [Signature.takesNothing, h]
    simp [Delivery.takesNothing]

theorem Written.output_args_eq_empty_iff {returned result : String} {parameters : List String}
    (h : Written style s m returned parameters result) (hne : ∀ text ∈ parameters, text ≠ "")
    (width : Nat) : (m.signature s).takesNothing = true ↔
      ((Native.args style (m.signature s)).run (.start width)).output = "" := by
  rw [h.args_run, Sink.output_push_start_eq_empty_iff, intercalate_eq_empty_iff hne,
    h.takesNothing_iff]

/-- Exactly one way of handing over the results applies, and all that is written about them agrees
with it. A call takes no parameters if and only if nothing at all is written for them. -/
theorem hands_over_alike (style : NativeStyle) (s : Scope) (m : Method) :
    ∃ d, (∀ d', Hands s m d' ↔ d' = d) ∧
      (match d with
      | .direct result =>
        let type := result.shape.nativeResult style.qualified
        Written style s m type (m.parameters style s) (type ++ " \x7b\x7d")
      | .nothing => Written style s m "void" (m.parameters style s) "::android::hardware::Void()"
      | .callback => Written style s m "void" (m.parameters style s ++ [m.name ++ "_cb _hidl_cb"])
          "::android::hardware::Void()") ∧
      ∀ width, (m.signature s).takesNothing = true ↔
        ((Native.args style (m.signature s)).run (.start width)).output = "" := by
  obtain ⟨d, hd⟩ := exists_hands s m
  have hdelivery := hd.delivery_eq
  refine ⟨d, fun d' => ⟨fun hd' => hd'.delivery_eq.symm.trans hdelivery, fun h => h ▸ hd⟩, ?_⟩
  have hne : ∀ text ∈ m.parameters style s, text ≠ "" := fun _ => ne_empty_of_mem_parameters
  cases d with
  | direct result =>
    have hwritten := written_of_direct style hdelivery
    exact ⟨hwritten, hwritten.output_args_eq_empty_iff hne⟩
  | nothing =>
    have hwritten := written_of_nothing style hdelivery
    exact ⟨hwritten, hwritten.output_args_eq_empty_iff hne⟩
  | callback =>
    have hwritten := written_of_callback style hdelivery
    refine ⟨hwritten, hwritten.output_args_eq_empty_iff fun text htext => ?_⟩
    rcases List.mem_append.1 htext with htext | htext
    · exact hne text htext
    · rw [List.mem_singleton.1 htext]
      simp [String.append_eq_empty_iff]

/-- The way changes when the only result is resolved to a type that can be returned. -/
example :
    let s := Scope.initial.bind "Status" (.scalar .uint32)
    let status : Ty := .ref ⟨0, "Status", .empty⟩
    let m : Method := ⟨⟨1, "poll", .empty, ⟨[⟨"code", status, .empty⟩], by simp⟩, false, []⟩,
      .empty, .ordinary none⟩
    (Native.signature .header (m.signature s)).toText = "Return<void> poll(poll_cb _hidl_cb)" ∧
      (Native.signature .header (m.signature (s.evaluate status).2)).toText =
        "Return<uint32_t> poll()" := by
  decide

end Method
end Idl
