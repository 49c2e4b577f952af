import Idl.Proofs.Faults
import Idl.Proofs.Parts

/-!
# The text of a request, put together

The text that answers a request is that of the declared method and then that of each reserved
method, native text before managed text. Each part ends its last line and leaves the builtin names
as they are, so the next is written as on its own. Whether a request fails is up to the method that
it declares.
-/

namespace Idl

open Catalogue (Standard)

namespace Request

variable {r : Request} {s : Scope} {m? : Option Method} {ms : List Method} {interface : String}
  {f : Failure}

theorem Builtin.standard (hs : Builtin s) : Standard s :=
  Catalogue.standard_initial.of_bindings_eq hs.bindings_eq

theorem Fault.ne_misuse {name : String} (h : Fault r name f) (misuse : Misuse) :
    f ≠ .misuse misuse := by
  rintro rfl
  cases h

/-- The declared method is refused, but never as a misuse, or it is handed over. Then it is not
reserved, and the builtin names still mean the builtin types. -/
theorem declared_cases (r : Request) :
    (∃ f, r.declared .initial = .error f ∧ ∀ misuse, f ≠ .misuse misuse) ∨
      ∃ m? s, r.declared .initial = .ok (m?, s) ∧ Standard s ∧ ∀ m ∈ m?, m.isReserved = false := by
  have hinitial : Builtin .initial := ⟨rfl, rfl⟩
  cases hname : r.name with
  | none =>
    have hdeclared : r.declared .initial = .ok (none, .initial) := by rw [declared, hname]
    exact .inr ⟨none, .initial, hdeclared, hinitial.standard, fun m hm => by cases hm⟩
  | some name =>
    rcases exists_fault_or_faultless r name with ⟨f, hf⟩ | ⟨as, rs, hr⟩
    · exact .inl ⟨f, hf.declared_eq hname hinitial, hf.ne_misuse⟩
    · obtain ⟨m, s, hdrawn, hs, hdeclared⟩ :=
        exists_declared_of_drafted hname hr.toDrafted hinitial
      rw [hdrawn.verdict_of_sound hr.toDrafted hs hr.bound hr.resultless hr.named] at hdeclared
      refine .inr ⟨some m, _, hdeclared, hs.standard.of_steady (m.steady_analyze s), ?_⟩
      intro m' hm'
      rw [← Option.some.inj hm', Method.isReserved, hdrawn.standing_eq]

theorem of_declared_eq_ok (h : r.declared .initial = .ok (m?, s)) :
    Standard s ∧ ∀ m ∈ m?, m.isReserved = false := by
  rcases r.declared_cases with ⟨f, hf, -⟩ | ⟨m?', s', hok, hall⟩
  · rw [hf] at h
    cases h
  · rw [hok] at h
    cases h
    exact hall

def declaredDoc (r : Request) (s : Scope) : Option Method → Doc
  | some m => r.methodDoc s m
  | none => .empty

theorem document_of_declared_error (h : r.declared .initial = .error f) :
    r.document = .error f := by
  rw [document, h]
  rfl

theorem document_of_declared (h : r.declared .initial = .ok (m?, s)) :
    r.document = match r.reserved with
      | none => .ok (r.declaredDoc s m? ++ .empty)
      | some interface => (Catalogue.build s interface []).bind fun built =>
        .ok (r.declaredDoc s m? ++ Doc.concat (built.1.map (r.reservedDoc built.2))) := by
  rw [document, h]
  cases m? with
  | none =>
    simp only [mapM_reservedPart]
    cases r.reserved <;> rfl
  | some m =>
    simp only [methodPart_eq_ok, mapM_reservedPart]
    cases r.reserved <;> rfl

theorem whole_declaredDoc (h : ∀ m ∈ m?, m.isReserved = false) (r : Request) (s : Scope) :
    (r.declaredDoc s m?).Whole := by
  cases m? with
  | none => exact Doc.whole_empty
  | some m => exact whole_methodDoc (Method.closed_of_ordinary (h m rfl)) r s

def catalogueText (r : Request) : Except Failure (List Method × Scope) → String
  | .ok (ms, s) => String.join (ms.map fun m => (r.reservedDoc s m).toText)
  | .error _ => ""

/-- The text of the reserved methods of an interface, where nothing else is declared. -/
def reservedText (r : Request) (interface : String) : String :=
  r.catalogueText (Catalogue.build .initial interface [])

/-- The reserved methods have the same text wherever the builtin names mean the builtin types. -/
theorem exists_reservedText_eq (hs : Standard s) (r : Request) (interface : String) :
    ∃ ms s', Catalogue.build s interface [] = .ok (ms, s') ∧
      List.Forall₂ (Catalogue.Entry.Recorded s') (Catalogue.entries interface []) ms ∧
      (∀ m ∈ ms, m.Closed) ∧
      String.join (ms.map fun m => (r.reservedDoc s' m).toText) = r.reservedText interface := by
  obtain ⟨ms, s', hbuild, hrecorded⟩ := Catalogue.exists_build_eq_ok hs interface []
  obtain ⟨ms₀, s₀, hbuild₀, hrecorded₀⟩ :=
    Catalogue.exists_build_eq_ok Catalogue.standard_initial interface []
  refine ⟨ms, s', hbuild, hrecorded, fun m hm => ?_, ?_⟩
  · obtain ⟨e, he, hem⟩ := exists_of_mem_of_forall₂ hrecorded hm
    exact hem.closed he
  · have htext : ms.map (fun m => (r.reservedDoc s' m).toText) =
        ms₀.map fun m => (r.reservedDoc s₀ m).toText := by
      refine map_eq_map_of_forall₂ (forall₂_of_common hrecorded₀ hrecorded) fun m₀ m _ hem => ?_
      obtain ⟨e, hm₀, hm⟩ := hem
      have hsignature := hm.signature_eq.trans hm₀.signature_eq.symm
      rw [reservedDoc_congr hsignature (hm₀.standing_congr hm)]
    rw [reservedText, hbuild₀, catalogueText, htext]

theorem render_of_declared_error (h : r.declared .initial = .error f) : r.render = .error f := by
  rw [render, document_of_declared_error h]
  rfl

/-- The text of the declared method and then that of the reserved methods. -/
theorem render_of_declared (h : r.declared .initial = .ok (m?, s)) :
    r.render = .ok ((r.declaredDoc s m?).toText ++
      match r.reserved with
      | none => ""
      | some interface => r.reservedText interface) := by
  obtain ⟨hs, hordinary⟩ := of_declared_eq_ok h
  have hwhole := whole_declaredDoc hordinary r s
  have hdocument := document_of_declared h
  cases hreserved : r.reserved with
  | none =>
    rw [hreserved] at hdocument
    rw [render, hdocument]
    change Except.ok (r.declaredDoc s m? ++ .empty).toText = _
    rw [Doc.toText_append hwhole]
    rfl
  | some interface =>
    obtain ⟨ms, s', hbuild, -, hclosed, htext⟩ := exists_reservedText_eq hs r interface
    have hparts : ∀ d ∈ ms.map (r.reservedDoc s'), d.Whole := by
      intro d hd
      obtain ⟨m, hm, rfl⟩ := List.mem_map.1 hd
      exact whole_reservedDoc (hclosed m hm) r s'
    simp only [hreserved, hbuild, Except.bind] at hdocument
    rw [render, hdocument]
    change Except.ok (r.declaredDoc s m? ++ Doc.concat (ms.map (r.reservedDoc s'))).toText = _
    rw [Doc.toText_append hwhole, Doc.toText_concat hparts, List.map_map]
    exact congrArg (fun text => Except.ok ((r.declaredDoc s m?).toText ++ text)) htext

theorem render_eq_error_iff : r.render = .error f ↔ r.declared .initial = .error f := by
  refine ⟨fun hf => ?_, render_of_declared_error⟩
  cases h : r.declared .initial with
  | error f' => exact congrArg _ (Except.error.inj ((render_of_declared_error h).symm.trans hf))
  | ok declared =>
    rw [render_of_declared h] at hf
    cases hf

theorem reservedText_congr {r' : Request} (h : r'.reservedDoc = r.reservedDoc)
    (interface : String) : r'.reservedText interface = r.reservedText interface := by
  rw [reservedText, reservedText]
  cases Catalogue.build .initial interface [] with
  | error f => rfl
  | ok built => rw [catalogueText, catalogueText, h]

theorem render_of_unnamed (hname : r.name = none) (hreserved : r.reserved = some interface) :
    r.render = .ok (r.reservedText interface) := by
  have hdeclared : r.declared .initial = .ok (none, .initial) := by rw [declared, hname]
  rw [render_of_declared hdeclared, hreserved]
  change Except.ok ("" ++ r.reservedText interface) = _
  rw [String.empty_append]

theorem render_ne_misuse (r : Request) (misuse : Misuse) : r.render ≠ .error (.misuse misuse) := by
  intro h
  have hdeclared := render_eq_error_iff.1 h
  rcases r.declared_cases with ⟨f, hf, hne⟩ | ⟨m?, s, hok, -⟩
  · exact hne misuse (Except.error.inj (hf.symm.trans hdeclared))
  · rw [hok] at hdeclared
    cases hdeclared

/-- The text of the declared method does not depend on what is written after it, nor that on it. -/
theorem render_append_reserved (r : Request) (interface : String) :
    { r with name := none, reserved := some interface }.render =
        .ok (r.reservedText interface) ∧
      { r with reserved := some interface }.render =
        ({ r with reserved := none }.render).map (· ++ r.reservedText interface) := by
  let unnamed : Request := { r with name := none, reserved := some interface }
  let both : Request := { r with reserved := some interface }
  let alone : Request := { r with reserved := none }
  have hunnamedDoc : unnamed.reservedDoc = r.reservedDoc := rfl
  have hbothDoc : both.reservedDoc = r.reservedDoc := rfl
  have hunnamed := reservedText_congr hunnamedDoc interface
  have hboth := reservedText_congr hbothDoc interface
  refine ⟨?_, ?_⟩
  · rw [← hunnamed]
    exact render_of_unnamed rfl rfl
  change both.render = alone.render.map _
  cases h : r.declared .initial with
  | error f =>
    have hdeclared : both.declared .initial = .error f := h
    have hdeclared' : alone.declared .initial = .error f := h
    rw [render_of_declared_error hdeclared, render_of_declared_error hdeclared']
    rfl
  | ok declared =>
    have hdeclared : both.declared .initial = .ok declared := h
    have hdeclared' : alone.declared .initial = .ok declared := h
    rw [render_of_declared hdeclared, render_of_declared hdeclared']
    change Except.ok (_ ++ both.reservedText interface) = Except.ok ((_ ++ "") ++ _)
    rw [hboth, String.append_empty]
    rfl

/-- A declared method that stands alone is written for the backends that are selected. -/
theorem render_of_selected {m : Method} (hreserved : r.reserved = none)
    (h : r.declared .initial = .ok (some m, s)) (backend : Selection) :
    { r with backend := backend }.render =
      .ok (backend.written (r.nativeDoc s m).toText (managedDoc s m).toText) := by
  let selected : Request := { r with backend := backend }
  have hdeclared : selected.declared .initial = .ok (some m, s) := h
  have hordinary := (of_declared_eq_ok h).2 m rfl
  have htext := toText_methodDoc (Method.closed_of_ordinary hordinary) selected s
  have hrender := render_of_declared hdeclared
  have hnone : selected.reserved = none := hreserved
  rw [hnone] at hrender
  change selected.render = .ok ((selected.methodDoc s m).toText ++ "") at hrender
  rw [String.append_empty, htext] at hrender
  exact hrender

/-- A declared method is written for both backends as for the one and then for the other. -/
theorem render_all_eq_bind (r : Request) :
    { r with reserved := none, backend := .all }.render =
      ({ r with reserved := none, backend := .native }.render).bind fun native =>
        ({ r with reserved := none, backend := .managed }.render).map (native ++ ·) := by
  let only (backend : Selection) : Request := { r with reserved := none, backend := backend }
  change (only .all).render =
    ((only .native).render).bind fun native => ((only .managed).render).map (native ++ ·)
  cases h : r.declared .initial with
  | error f =>
    have hrender : ∀ backend, (only backend).render = .error f :=
      fun backend => render_of_declared_error (r := only backend) h
    rw [hrender, hrender]
    rfl
  | ok declared =>
    obtain ⟨m?, s⟩ := declared
    cases m? with
    | none =>
      have hrender : ∀ backend, (only backend).render = .ok "" :=
        fun backend => render_of_declared (r := only backend) h
      rw [hrender, hrender, hrender]
      rfl
    | some m =>
      have hdeclared : { r with reserved := none }.declared .initial = .ok (some m, s) := h
      have hrender : ∀ backend, (only backend).render =
          .ok (backend.written (r.nativeDoc s m).toText (managedDoc s m).toText) :=
        render_of_selected rfl hdeclared
      rw [hrender, hrender, hrender]
      rfl

/-- The reserved methods are written one after the other, each under its own head. -/
theorem render_reserved (r : Request) (interface : String) {s : Scope}
    (hbuild : Catalogue.build .initial interface [] = .ok (ms, s)) (hclosed : ∀ m ∈ ms, m.Closed)
    (backend : Selection) :
    { r with name := none, reserved := some interface, backend := backend }.render =
      .ok (String.join (ms.map fun m => (headDoc m).toText ++
        backend.written (r.nativeDoc s m).toText (managedDoc s m).toText)) := by
  let only : Request := { r with name := none, reserved := some interface, backend := backend }
  have honly : only.render = .ok (only.reservedText interface) := render_of_unnamed rfl rfl
  have htext : ∀ m ∈ ms, (only.reservedDoc s m).toText = _ :=
    fun m hm => toText_reservedDoc (hclosed m hm) only s
  refine honly.trans (congrArg Except.ok ?_)
  rw [reservedText, hbuild]
  exact congrArg String.join (List.map_congr_left htext)

/-- The text for a request is put together from texts that do not depend on each other: the declared
method and the reserved ones, the native part and the managed part. Only what declares the method
decides whether there is a text at all. -/
theorem render_is_compositional (r : Request) :
    (∀ interface, ∃ reserved,
      { r with name := none, reserved := some interface }.render = .ok reserved ∧
        { r with reserved := some interface }.render =
          ({ r with reserved := none }.render).map (· ++ reserved)) ∧
    { r with reserved := none, backend := .all }.render =
      ({ r with reserved := none, backend := .native }.render).bind (fun native =>
        ({ r with reserved := none, backend := .managed }.render).map (native ++ ·)) ∧
    (∀ interface, ∃ (ms : List Method) (s : Scope) (native managed : Method → Doc),
      Catalogue.build .initial interface [] = .ok (ms, s) ∧
      (∀ m, r.nativePart s m = .ok (native m)) ∧ (∀ m, managedPart s m = .ok (managed m)) ∧
      let only (backend : Selection) : Request :=
        { r with name := none, reserved := some interface, backend := backend }
      let head (m : Method) : String := (Doc.newline ++ serialLine m).toText
      (only .native).render =
        .ok (String.join (ms.map fun m => head m ++ (native m).toText)) ∧
      (only .managed).render =
        .ok (String.join (ms.map fun m => head m ++ (managed m).toText)) ∧
      (only .all).render =
        .ok (String.join (ms.map fun m =>
          head m ++ (native m).toText ++ (managed m).toText))) ∧
    (∀ owner namespaces backend reserved output verbose f,
      { r with
        owner := owner, namespaces := namespaces, backend := backend, reserved := reserved,
        output := output, verbose := verbose }.render = .error f ↔ r.render = .error f) ∧
    ∀ output verbose, { r with output := output, verbose := verbose }.render = r.render := by
  refine ⟨fun interface => ⟨_, render_append_reserved r interface⟩, render_all_eq_bind r,
    fun interface => ?_, fun owner namespaces backend reserved output verbose f => ?_,
    fun output verbose => rfl⟩
  · obtain ⟨ms, s, hbuild, -, hclosed, -⟩ :=
      exists_reservedText_eq Catalogue.standard_initial r interface
    have hrender := render_reserved r interface hbuild hclosed
    have hall : ms.map (fun m => (headDoc m).toText ++
          ((r.nativeDoc s m).toText ++ (managedDoc s m).toText)) =
        ms.map fun m => (headDoc m).toText ++ (r.nativeDoc s m).toText ++ (managedDoc s m).toText :=
      List.map_congr_left fun m _ => String.append_assoc.symm
    exact ⟨ms, s, r.nativeDoc s, managedDoc s, hbuild, r.nativePart_eq_ok s, managedPart_eq_ok s,
      hrender .native, hrender .managed, hall ▸ hrender .all⟩
  · rw [render_eq_error_iff, render_eq_error_iff]
    rfl

/-- After a name with a line feed in it, the managed text still begins a line of its own. -/
example : { Request.blank with name := some "a\nb", owner := some "C", backend := .all }.render =
    .ok "Return<void> C::a\nb();\n// managed arguments: \n// managed results: \n" := by
  decide

end Request
end Idl
