import Idl.Proofs.Dispatch
import Idl.Proofs.Roster

/-!
# The parts of a text

The text of a request is made of parts: the native and the managed part of each method, and a head
for each reserved one. A part depends on nothing but the signature and the standing of its method,
and it ends its last line.
-/

namespace Idl

/-- What is written of a native and a managed text. -/
def Selection.written (nativeText managedText : String) : Selection → String
  | native => nativeText
  | managed => managedText
  | all => nativeText ++ managedText

namespace Catalogue

variable {s s' : Scope} {interface : String} {chain : List String} {e : Entry} {m m' : Method}

theorem whole_nativeChain (chain : List String) : (nativeChain chain).Whole := by
  have hnames : ∀ d ∈ chain.map fun name => Doc.text (FqName.native name ++ "::descriptor,\n"),
      d.Whole := by
    intro d hd
    obtain ⟨name, -, rfl⟩ := List.mem_map.1 hd
    exact Doc.whole_text_append _ "::descriptor,"
  exact (((Doc.whole_line "_hidl_cb(\x7b").append (Doc.whole_concat hnames).nest).append
    (Doc.whole_line "\x7d);")).append (Doc.whole_ofLines _)

theorem whole_managedChain (chain : List String) : (managedChain chain).Whole :=
  Doc.whole_append_line _ "));"

theorem whole_lines (lines : List String) : (Body.lines lines).doc.Whole := Doc.whole_ofLines lines

theorem whole_of_mem_entries (he : e ∈ entries interface chain) :
    ∀ entry ∈ e.native ++ e.managed, entry.2.doc.Whole := by
  have hnative := whole_nativeChain (if chain.isEmpty then [interface] else chain)
  have hmanaged := whole_managedChain (if chain.isEmpty then [interface] else chain)
  simp only [entries, List.mem_cons, List.not_mem_nil, or_false] at he
  rcases he with rfl | rfl | rfl | rfl | rfl | rfl
  · simpa [interfaceChain] using ⟨hnative, hmanaged⟩
  · simp [debug, whole_lines]
  · simp [interfaceDescriptor, whole_lines]
  · have hempty : Body.empty.doc.Whole := Doc.whole_empty
    simp [setHALInstrumentation, configure, whole_lines, hempty]
  · simp [ping, whole_lines]
  · simp [notifySyspropsChanged, whole_lines]

namespace Entry.Recorded

theorem isReserved_eq (h : e.Recorded s m) : m.isReserved = true := by
  obtain ⟨native, managed, -, -, hstanding⟩ := h.standing_eq
  rw [Method.isReserved, hstanding]

theorem standing_congr (h : e.Recorded s m) (h' : e.Recorded s' m') : m'.standing = m.standing := by
  obtain ⟨native, managed, hnative, hmanaged, hstanding⟩ := h.standing_eq
  obtain ⟨native', managed', hnative', hmanaged', hstanding'⟩ := h'.standing_eq
  obtain rfl := Except.ok.inj (hnative.symm.trans hnative')
  obtain rfl := Except.ok.inj (hmanaged.symm.trans hmanaged')
  rw [hstanding, hstanding']

/-- The bodies of the method are those that the entry lists for the backend. -/
theorem mem_of_get?_bodies (h : e.Recorded s m) {backend : Backend} {role : Role} {body : Body}
    (hbody : (m.bodies backend).get? role = some body) :
    (role, body) ∈ e.native ++ e.managed := by
  obtain ⟨native, managed, hnative, hmanaged, hstanding⟩ := h.standing_eq
  unfold Method.bodies Method.table at hbody
  rw [hstanding] at hbody
  cases backend with
  | native => exact List.mem_append_left _ (BodyTable.mem_of_get?_ofList hnative hbody)
  | managed => exact List.mem_append_right _ (BodyTable.mem_of_get?_ofList hmanaged hbody)

theorem closed (h : e.Recorded s m) (he : e ∈ entries interface chain) : m.Closed :=
  fun _ role body hbody => whole_of_mem_entries he (role, body) (h.mem_of_get?_bodies hbody)

end Entry.Recorded
end Catalogue

namespace Request

variable {s s' : Scope} {m m' : Method}

def nativeDoc (r : Request) (s : Scope) (m : Method) : Doc :=
  Native.declaration r.style (m.signature s) ++ (Emitter.native r.style).ownSections m

def managedHead (g : Signature) : Doc :=
  Doc.text "// managed arguments: " ++ Managed.args g ++ Doc.text "\n// managed results: " ++
    Managed.results g ++ Doc.newline

def managedDoc (s : Scope) (m : Method) : Doc :=
  if m.hasManagedForm s then managedHead (m.signature s) ++ Emitter.managed.ownSections m
  else Doc.text ("// " ++ m.name ++ " is not available to the managed backend\n")

def methodDoc (r : Request) (s : Scope) (m : Method) : Doc :=
  (if r.backend.includes .native then r.nativeDoc s m else .empty) ++
    if r.backend.includes .managed then managedDoc s m else .empty

def headDoc (m : Method) : Doc := Doc.newline ++ serialLine m

def reservedDoc (r : Request) (s : Scope) (m : Method) : Doc := headDoc m ++ r.methodDoc s m

theorem nativePart_eq_ok (r : Request) (s : Scope) (m : Method) :
    r.nativePart s m = .ok (r.nativeDoc s m) := by
  rw [nativePart, Emitter.roleSections_eq_ok]
  rfl

theorem managedPart_eq_ok (s : Scope) (m : Method) : managedPart s m = .ok (managedDoc s m) := by
  unfold managedPart managedDoc
  rw [Emitter.roleSections_eq_ok]
  split <;> rfl

theorem methodPart_eq_ok (r : Request) (s : Scope) (m : Method) :
    r.methodPart s m = .ok (r.methodDoc s m) := by
  unfold methodPart methodDoc
  rw [nativePart_eq_ok, managedPart_eq_ok]
  split <;> split <;> rfl

theorem reservedPart_eq_ok (r : Request) (s : Scope) (m : Method) :
    r.reservedPart s m = .ok (r.reservedDoc s m) := by
  rw [reservedPart, methodPart_eq_ok]
  rfl

theorem mapM_reservedPart (r : Request) (s : Scope) (ms : List Method) :
    ms.mapM (r.reservedPart s) = .ok (ms.map (r.reservedDoc s)) := by
  have hpart : r.reservedPart s = fun m => pure (r.reservedDoc s m) :=
    funext fun m => reservedPart_eq_ok r s m
  rw [hpart, List.mapM_pure]
  rfl

/-- What is written of a method depends on what the backends are told and on its standing alone. -/
theorem parts_congr (hsignature : m'.signature s' = m.signature s)
    (hstanding : m'.standing = m.standing) (r : Request) :
    headDoc m' = headDoc m ∧ r.nativeDoc s' m' = r.nativeDoc s m ∧
      managedDoc s' m' = managedDoc s m := by
  have hname : m'.name = m.name := congrArg Signature.name hsignature
  have hreserved := Method.isReserved_congr hstanding
  have hsection : ∀ e : Emitter, e.ownSection m' = e.ownSection m := by
    intro e
    funext role
    unfold Emitter.ownSection
    rw [Method.bodies_congr hstanding]
  have hsections : ∀ e : Emitter, e.ownSections m' = e.ownSections m := by
    intro e
    rw [Emitter.ownSections, Emitter.ownSections, hreserved, hsection]
  have hmanaged : m'.hasManagedForm s' = m.hasManagedForm s := by
    rw [Method.hasManagedForm, Method.hasManagedForm, Method.hidesTypes, Method.hidesTypes,
      hreserved, hname, hsignature]
  refine ⟨?_, ?_, ?_⟩
  · rw [headDoc, headDoc, serialLine, serialLine, Method.serial?, Method.serial?, hstanding]
  · rw [nativeDoc, nativeDoc, hsignature, hsections]
  · rw [managedDoc, managedDoc, hmanaged, hname, hsignature, hsections]

theorem reservedDoc_congr (hsignature : m'.signature s' = m.signature s)
    (hstanding : m'.standing = m.standing) (r : Request) :
    r.reservedDoc s' m' = r.reservedDoc s m := by
  obtain ⟨hhead, hnative, hmanaged⟩ := parts_congr hsignature hstanding r
  rw [reservedDoc, reservedDoc, methodDoc, methodDoc, hhead, hnative, hmanaged]

theorem whole_headDoc (m : Method) : (headDoc m).Whole := by
  refine (Doc.whole_line "").append ?_
  unfold serialLine
  split
  · exact Doc.whole_line _
  · exact Doc.whole_empty

theorem whole_declaration (style : NativeStyle) (g : Signature) :
    (Native.declaration style g).Whole := Doc.whole_append_line _ ";"

theorem whole_managedHead (g : Signature) : (managedHead g).Whole := Doc.whole_append_line _ ""

theorem whole_nativeDoc (h : m.Closed) (r : Request) (s : Scope) : (r.nativeDoc s m).Whole :=
  (whole_declaration _ _).append (Emitter.whole_ownSections h _)

theorem whole_managedDoc (h : m.Closed) (s : Scope) : (managedDoc s m).Whole := by
  unfold managedDoc
  split
  · exact (whole_managedHead _).append (Emitter.whole_ownSections h _)
  · exact Doc.whole_text_append _ " is not available to the managed backend"

theorem whole_methodDoc (h : m.Closed) (r : Request) (s : Scope) : (r.methodDoc s m).Whole := by
  refine Doc.Whole.append ?_ ?_
  · split
    · exact whole_nativeDoc h r s
    · exact Doc.whole_empty
  · split
    · exact whole_managedDoc h s
    · exact Doc.whole_empty

theorem whole_reservedDoc (h : m.Closed) (r : Request) (s : Scope) : (r.reservedDoc s m).Whole :=
  (whole_headDoc m).append (whole_methodDoc h r s)

theorem toText_methodDoc (h : m.Closed) (r : Request) (s : Scope) :
    (r.methodDoc s m).toText =
      r.backend.written (r.nativeDoc s m).toText (managedDoc s m).toText := by
  unfold methodDoc
  cases r.backend with
  | native => exact (Doc.toText_append (whole_nativeDoc h r s) .empty).trans String.append_empty
  | managed => exact (Doc.toText_append Doc.whole_empty _).trans String.empty_append
  | all => exact Doc.toText_append (whole_nativeDoc h r s) _

theorem toText_reservedDoc (h : m.Closed) (r : Request) (s : Scope) :
    (r.reservedDoc s m).toText = (headDoc m).toText ++
      r.backend.written (r.nativeDoc s m).toText (managedDoc s m).toText := by
  rw [reservedDoc, Doc.toText_append (whole_headDoc m), toText_methodDoc h]

end Request
end Idl
