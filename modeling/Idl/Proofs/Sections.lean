import Idl.Proofs.Composition

/-!
# Sections for roles

Under each reserved method of an interface stands a section for every role that its table registers
for the backend, in the order of the roles, and nothing for any other role. A definition has the
body for its role between its braces. No request comes to a body by misuse.
-/

namespace Idl

/-- The roles in the order of their sections, each with its name there. -/
def sectionRoles : List (Role × String) :=
  [(.interface, "interface"), (.proxy, "proxy"), (.stub, "stub"), (.stubImpl, "stub-impl"),
    (.passthrough, "passthrough")]

namespace BodyTable

/-- The section of a role that the table has a body for: a comment that names the backend and the
role, and the body one level deeper. -/
def sectionText (t : BodyTable) (backend : String) (role : Role × String) : String :=
  match t.get? role.1 with
  | some (.emit body) => "// " ++ backend ++ " " ++ role.2 ++ "\n" ++ body.relocated 4 1
  | some .empty => "// " ++ backend ++ " " ++ role.2 ++ "\n"
  | none => ""

def sectionsText (t : BodyTable) (backend : String) : String :=
  String.join (sectionRoles.map (t.sectionText backend))

/-- The roles that the table has a body for. -/
def registered (t : BodyTable) : List Role :=
  (sectionRoles.map Prod.fst).filter fun role => (t.get? role).isSome

end BodyTable

/-- The native and the managed bodies of a method. An ordinary method has none. -/
def Method.tables (m : Method) : BodyTable × BodyTable :=
  match m.standing with
  | .ordinary _ => (.empty .native, .empty .managed)
  | .reserved _ native managed => (native, managed)

theorem Method.tables_eq (m : Method) : m.tables = (m.bodies .native, m.bodies .managed) := by
  unfold tables bodies table
  cases m.standing <;> rfl

namespace Emitter

variable {m : Method}

/-- What the generic body says. -/
def genericText : Emitter → Signature → String
  | .native style, g =>
    match g.delivery with
    | .direct result => "return " ++ result.shape.nativeResult style.qualified ++ " \x7b\x7d;\n"
    | _ => "return ::android::hardware::Void();\n"
  | .managed, g =>
    match g.results with
    | [only] => "return " ++ only.shape.default ++ ";\n"
    | _ => "return;\n"

theorem fallbackBody_eq (e : Emitter) (g : Signature) :
    e.fallbackBody g = .text (e.genericText g) := by
  cases e with
  | native style =>
    change Native.fallbackBody style g = _
    rw [Native.fallbackBody, genericText]
    cases g.delivery <;> rfl
  | managed =>
    change Managed.fallbackBody g = _
    rw [Managed.fallbackBody, genericText]
    rcases g.results with _ | ⟨only, _ | _⟩ <;> rfl

theorem toText_ownSection (e : Emitter) (m : Method) (role : Role) :
    (e.ownSection m role).toText =
      (m.bodies e.backend).sectionText e.backend.name (role, role.name) := by
  unfold ownSection BodyTable.sectionText
  rcases (m.bodies e.backend).get? role with _ | body | _
  · rfl
  · exact Doc.toText_line_append_nest _ body
  · exact (Doc.toText_line_append_nest _ .empty).trans String.append_empty

theorem toText_ownSections (h : m.Closed) (e : Emitter) :
    (e.ownSections m).toText = (m.bodies e.backend).sectionsText e.backend.name := by
  unfold ownSections
  cases hreserved : m.isReserved with
  | false =>
    rw [Method.bodies_eq_empty hreserved]
    rfl
  | true =>
    have hwhole : ∀ d ∈ Role.all.map (e.ownSection m), d.Whole := by
      intro d hd
      obtain ⟨role, -, rfl⟩ := List.mem_map.1 hd
      exact whole_ownSection h e role
    have hroles : sectionRoles = Role.all.map fun role => (role, role.name) := rfl
    change (Doc.concat (Role.all.map (e.ownSection m))).toText = _
    rw [Doc.toText_concat hwhole, List.map_map, BodyTable.sectionsText, hroles, List.map_map]
    exact congrArg String.join (List.map_congr_left fun role _ => toText_ownSection e m role)

end Emitter

/-- A definition is the signature, and the body one level deeper between braces. -/
theorem Native.run_definition (style : NativeStyle) (g : Signature) (body : Doc) (k : Sink) :
    (definition style g body).run k =
      let opened := ((signature style g).run k).push " \x7b\n"
      let inside := body.run { opened with level := opened.level + 1 }
      { inside with level := inside.level - 1 }.push "\x7d\n" := by
  have hopened : ((signature style g).run k).push " \x7b\n" =
      (((signature style g).run k).push " ").push "\x7b\n" := Sink.push_append _ " " "\x7b\n"
  simp only [hopened]
  rfl

namespace Catalogue

/-- The reserved methods with the roles of their native and their managed sections. -/
def sectionTable : List (String × List Role × List Role) :=
  [("interfaceChain", [.interface], [.interface]),
    ("debug", [.interface], [.interface]),
    ("interfaceDescriptor", [.interface], [.interface]),
    ("setHALInstrumentation", [.interface, .proxy, .stubImpl, .passthrough], [.interface]),
    ("ping", [.interface], [.interface]),
    ("notifySyspropsChanged", [.interface], [.interface])]

namespace Entry.Recorded

variable {s : Scope} {interface : String} {chain : List String} {e : Entry} {m : Method}

/-- Each reserved method has a managed text: either all its types have a managed form, or it hides
them. -/
theorem hasManagedForm (h : e.Recorded s m) (he : e ∈ entries interface chain) :
    m.hasManagedForm s = true := by
  have hname : m.name = e.name := congrArg Signature.name h.signature_eq
  rw [Method.hasManagedForm, Method.hidesTypes, h.isReserved_eq, hname, h.signature_eq]
  simp only [entries, List.mem_cons, List.not_mem_nil, or_false] at he
  rcases he with rfl | rfl | rfl | rfl | rfl | rfl <;> rfl

/-- The tables of the method register the roles that the entry lists. -/
theorem registered_eq (h : e.Recorded s m) (he : e ∈ entries interface chain) :
    (m.tables.1.registered, m.tables.2.registered) =
      (e.native.map Prod.fst, e.managed.map Prod.fst) := by
  obtain ⟨native, managed, hnative, hmanaged, hstanding⟩ := h.standing_eq
  rw [Method.tables, hstanding]
  simp only [entries, List.mem_cons, List.not_mem_nil, or_false] at he
  rcases he with rfl | rfl | rfl | rfl | rfl | rfl <;>
    rw [← Except.ok.inj hnative, ← Except.ok.inj hmanaged] <;> rfl

end Entry.Recorded

theorem map_registered_of_recorded {s : Scope} {interface : String} {ms : List Method}
    (h : List.Forall₂ (Entry.Recorded s) (entries interface []) ms) :
    ms.map (fun m => (m.name, m.tables.1.registered, m.tables.2.registered)) = sectionTable := by
  let row (e : Entry) := (e.name, e.native.map Prod.fst, e.managed.map Prod.fst)
  have hrows : List.Forall₂
      (fun e m => (m.name, m.tables.1.registered, m.tables.2.registered) = row e)
      (entries interface []) ms := by
    refine forall₂_imp_of_mem h fun e he m _ hm => ?_
    have hname : m.name = e.name := congrArg Signature.name hm.signature_eq
    rw [hm.registered_eq he, hname]
  exact map_eq_map_of_forall₂ hrows fun _ _ _ hrow => hrow

end Catalogue

namespace Request

variable {r : Request} {s : Scope} {m? : Option Method} {m : Method} {interface : String}

/-- The native text of a method: its declaration, and its sections. -/
def nativeText (r : Request) (s : Scope) (m : Method) : String :=
  (Native.declaration r.style (m.signature s)).toText ++ m.tables.1.sectionsText "native"

/-- The managed text of a method: what it takes and returns, and its sections. -/
def managedText (s : Scope) (m : Method) : String :=
  (managedHead (m.signature s)).toText ++ m.tables.2.sectionsText "managed"

theorem toText_nativeDoc (h : m.Closed) (r : Request) (s : Scope) :
    (r.nativeDoc s m).toText = r.nativeText s m := by
  rw [nativeDoc, Doc.toText_append (whole_declaration _ _), Emitter.toText_ownSections h,
    nativeText, m.tables_eq]
  rfl

theorem toText_managedDoc (h : m.Closed) (hform : m.hasManagedForm s = true) :
    (managedDoc s m).toText = managedText s m := by
  rw [managedDoc, if_pos hform, Doc.toText_append (whole_managedHead _),
    Emitter.toText_ownSections h, managedText, m.tables_eq]
  rfl

theorem exists_render_eq_of_reserved (hreserved : r.reserved = some interface)
    (hdeclared : r.declared .initial = .ok (m?, s)) :
    ∃ ms s' declared, Catalogue.build s interface [] = .ok (ms, s') ∧
      List.Forall₂ (Catalogue.Entry.Recorded s') (Catalogue.entries interface []) ms ∧
      { r with reserved := none }.render = .ok declared ∧
      r.render = .ok (declared ++ String.join (ms.map fun m =>
        (Doc.newline ++ serialLine m).toText ++
          r.backend.written (r.nativeText s' m) (managedText s' m))) := by
  obtain ⟨hs, -⟩ := of_declared_eq_ok hdeclared
  obtain ⟨ms, s', hbuild, hrecorded, hclosed, htext⟩ := exists_reservedText_eq hs r interface
  have hmethod : ∀ m ∈ ms, (r.reservedDoc s' m).toText = (headDoc m).toText ++
      r.backend.written (r.nativeText s' m) (managedText s' m) := by
    intro m hm
    obtain ⟨e, he, hem⟩ := exists_of_mem_of_forall₂ hrecorded hm
    rw [toText_reservedDoc (hclosed m hm), toText_nativeDoc (hclosed m hm),
      toText_managedDoc (hclosed m hm) (hem.hasManagedForm he)]
  have halone : { r with reserved := none }.render = .ok (r.declaredDoc s m?).toText :=
    (render_of_declared (r := { r with reserved := none }) hdeclared).trans
      (congrArg Except.ok String.append_empty)
  refine ⟨ms, s', _, hbuild, hrecorded, halone, ?_⟩
  rw [render_of_declared hdeclared, hreserved]
  change Except.ok (_ ++ r.reservedText interface) = _
  rw [← htext, List.map_congr_left hmethod]
  rfl

/-- The dispatch on roles gives a body for every method and every role: that of the method's table
for the backend if it registers one, and else the generic one. So no request is misused, and under
each reserved method it prints the sections that the tables register, native before managed. -/
theorem dispatches_on_every_role :
    (∀ (e : Emitter) (s : Scope) (m : Method) (role : Role),
      e.body s m role = .ok (match m.standing with
        | .ordinary _ => .text (e.genericText (m.signature s))
        | .reserved _ native managed =>
          match (match e with | .native _ => native | .managed => managed).get? role with
          | some (.emit body) => body
          | some .empty => .empty
          | none => .text (e.genericText (m.signature s)))) ∧
    (∀ (style : NativeStyle) (s : Scope) (m : Method) (role : Role), ∃ body d,
      (Emitter.native style).body s m role = .ok body ∧ Native.define style s m role = .ok d ∧
        ∀ k : Sink, d.run k =
          let opened := ((Native.signature style (m.signature s)).run k).push " \x7b\n"
          let inside := body.run { opened with level := opened.level + 1 }
          { inside with level := inside.level - 1 }.push "\x7d\n") ∧
    ∀ r : Request, (∀ misuse, r.render ≠ .error (.misuse misuse)) ∧
      match r.reserved, r.declared .initial with
      | some interface, .ok (_, s) =>
        ∃ ms s' declared, Catalogue.build s interface [] = .ok (ms, s') ∧
          List.Forall₂ (Catalogue.Entry.Recorded s') (Catalogue.entries interface []) ms ∧
          ms.map (fun m => (m.name, m.tables.1.registered, m.tables.2.registered)) =
            Catalogue.sectionTable ∧
          { r with reserved := none }.render = .ok declared ∧
          r.render = .ok (declared ++ String.join (ms.map fun m =>
            (Doc.newline ++ serialLine m).toText ++
              r.backend.written (r.nativeText s' m) (managedText s' m)))
      | _, _ => True := by
  refine ⟨fun e s m role => ?_, fun style s m role => ?_, fun r => ⟨fun misuse h => ?_, ?_⟩⟩
  · rw [e.body_eq_ok, e.fallbackBody_eq]
    unfold Method.bodies Method.table
    cases m.standing with
    | ordinary serial => rfl
    | reserved serial native managed =>
      cases e with
      | native style =>
        rcases hget : native.get? role with _ | _ | _ <;>
          simp only [Emitter.backend, hget, Body.doc]
      | managed =>
        rcases hget : managed.get? role with _ | _ | _ <;>
          simp only [Emitter.backend, hget, Body.doc]
  · have hbody := (Emitter.native style).body_eq_ok s m role
    exact ⟨_, _, hbody, Doc.define_of_body hbody, Native.run_definition style (m.signature s) _⟩
  · exact r.render_ne_misuse misuse h
  · cases hreserved : r.reserved with
    | none => trivial
    | some interface =>
      cases hdeclared : r.declared .initial with
      | error f => trivial
      | ok declared =>
        obtain ⟨ms, s', text, hbuild, hrecorded, htext⟩ :=
          exists_render_eq_of_reserved hreserved hdeclared
        exact ⟨ms, s', text, hbuild, hrecorded, Catalogue.map_registered_of_recorded hrecorded,
          htext⟩

end Request
end Idl
