import Idl.Proofs.Declarations
import Idl.Proofs.Grounded
import Idl.Proofs.Objections

/-!
# Drafted methods

A request whose lists are in order draws up a method. In a scope that binds the builtin names alone,
the analysis of that method fails at the first type whose name is not among them, then for being
oneway with results, then at the first annotation that is not named by an identifier.
-/

namespace Idl.Request

open Ty (Walk Core)
open Scope (Passes ResolvedAlong)

variable {r : Request} {name : String} {s s' : Scope} {as rs : List Entry} {e : Entry} {m : Method}

def builtinNames : List String :=
  ["bool", "int8", "uint8", "int16", "uint16", "int32", "uint32", "int64", "uint64", "float",
    "double", "string", "handle"]

/-- No builtin type has the name that is inside all vectors. -/
def Unbound (e : Entry) : Prop := e.core ∉ builtinNames

/-- What is left of the text of an annotation without the `@`s before it. -/
def bareName (text : String) : String := String.ofList (text.toList.dropWhile (· = '@'))

def Misnamed (text : String) : Prop := ¬ IsIdentifier (bareName text)

/-- The place of the declared method: the lines of its arguments and its results. -/
def span (r : Request) : Location := ⟨some "<command line>", ⟨1, 1⟩, ⟨2, r.results.length + 1⟩⟩

/-- The request declares these arguments and results, without repeating a name among either. -/
structure Drafted (r : Request) (name : String) (as rs : List Entry) : Prop where
  name_ne : name ≠ ""
  args : Declares 1 1 r.args as
  args_nodup : (as.map Entry.name).Nodup
  results : Declares 2 1 r.results rs
  results_nodup : (rs.map Entry.name).Nodup

theorem draft_eq_bind (r : Request) (s : Scope) (hname : name ≠ "") :
    r.draft s name = (readVarList 1 s r.args).bind fun args =>
      (readVarList 2 args.2 r.results).bind fun results =>
        .ok (results.2.declare name args.1 results.1 r.oneway (r.annotations.map readNote)
          r.methodLocation) := by
  rw [draft, if_neg hname]
  rfl

/-- The method is drawn up as the request says. -/
structure Drawn (r : Request) (name : String) (as rs : List Entry) (m : Method) : Prop where
  name_eq : m.name = name
  args : List.Forall₂ Entry.Describes as m.args
  results : List.Forall₂ Entry.Describes rs m.results
  oneway_eq : m.oneway = r.oneway
  annotations_eq : m.annotations = r.annotations.map fun text => .named (bareName text) []
  location_eq : m.location = r.span
  standing_eq : m.standing = .ordinary none

theorem exists_draft_eq_ok (s : Scope) (h : Drafted r name as rs) :
    ∃ m s', r.draft s name = .ok (m, s') ∧ Drawn r name as rs m ∧ s'.bindings = s.bindings ∧
      s'.targets = s.targets := by
  obtain ⟨args, s₁, hargs, has, hbindings₁, htargets₁⟩ := readVarList_of_nodup s h.args h.args_nodup
  obtain ⟨results, s₂, hresults, hrs, hbindings₂, htargets₂⟩ :=
    readVarList_of_nodup s₁ h.results h.results_nodup
  let declared :=
    s₂.declare name args results r.oneway (r.annotations.map readNote) r.methodLocation
  have hdrawn : Drawn r name as rs declared.1 := ⟨rfl, has, hrs, rfl, rfl, rfl, rfl⟩
  refine ⟨declared.1, declared.2, ?_, hdrawn, hbindings₂.trans hbindings₁,
    htargets₂.trans htargets₁⟩
  rw [draft_eq_bind r s h.name_ne, hargs, Except.bind, hresults]
  rfl

/-- Only the builtin names are bound, and nothing is resolved. -/
structure Builtin (s : Scope) : Prop where
  bindings_eq : s.bindings = Scope.builtins
  targets_eq : s.targets = []

theorem Builtin.next?_eq (hs : Builtin s) (r : Ref) : s.next? r = Scope.builtins.lookup r.name := by
  rw [Scope.next?, Scope.target?, Scope.lookup?, hs.targets_eq, hs.bindings_eq]
  rfl

theorem builtin_is_leaf {b : String × Ty} (h : b ∈ Scope.builtins) :
    ∃ l : Leaf, b.2 = .leaf l ∧ l.evaluate = .ok () ∧ l.validate = .ok () := by
  rcases List.mem_append.1 h with h | h
  · obtain ⟨k, -, rfl⟩ := List.mem_map.1 h
    exact ⟨.scalar k, rfl, rfl, rfl⟩
  · rcases List.mem_cons.1 h with rfl | h
    · exact ⟨.string, rfl, rfl, rfl⟩
    · obtain rfl := List.mem_singleton.1 h
      exact ⟨.handle, rfl, rfl, rfl⟩

theorem map_fst_builtins : Scope.builtins.map Prod.fst = builtinNames := rfl

theorem lookup_builtins_eq_none_iff {n : String} :
    Scope.builtins.lookup n = none ↔ n ∉ builtinNames := by
  rw [← map_fst_builtins, List.lookup_eq_none_iff]
  simp only [bne_iff_ne, ne_eq, List.mem_map, not_exists, not_and]
  exact ⟨fun h b hb heq => h b hb heq.symm, fun h b hb heq => h b hb heq.symm⟩

theorem exists_walk_of_bound {v : Var} (hs : Builtin s) (h : e.Describes v) (he : ¬ Unbound e) :
    ∃ path depth l, Walk s.next? v.type path depth (.leaf l) ∧ l.evaluate = .ok () ∧
      l.validate = .ok () := by
  obtain ⟨-, -, -, id, hcore⟩ := h
  obtain ⟨u, hu⟩ := Option.ne_none_iff_exists'.1 fun hnone =>
    he (lookup_builtins_eq_none_iff.1 hnone)
  obtain ⟨l, hl, hchecks⟩ := builtin_is_leaf (Scope.mem_of_lookup_eq_some hu)
  change u = .leaf l at hl
  subst hl
  have hw : Walk s.next? v.type.core.ty [⟨id, e.core, e.location⟩] 0 (.leaf l) := by
    rw [hcore]
    exact .hop ((hs.next?_eq _).trans hu) (.leaf l)
  exact ⟨_, _, l, .of_core hw, hchecks⟩

theorem exists_walk_of_unbound {v : Var} (hs : Builtin s) (h : e.Describes v) (he : Unbound e) :
    ∃ path depth ref, Walk s.next? v.type path depth (.ref ref) ∧
      ref.unresolved = .unresolvedType e.core e.location := by
  obtain ⟨-, -, -, id, hcore⟩ := h
  let ref : Ref := ⟨id, e.core, e.location⟩
  have hw : Walk s.next? v.type.core.ty [ref] 0 (.ref ref) := by
    rw [hcore]
    exact .stop ((hs.next?_eq _).trans (lookup_builtins_eq_none_iff.2 he))
  exact ⟨_, _, ref, .of_core hw, rfl⟩

/-- The node is an argument or a result as the entry says. -/
def Stands (e : Entry) (n : Node) : Prop := ∃ v, e.Describes v ∧ n.type? = some v.type

theorem Stands.grounded {n : Node} (hs : Builtin s) (h : Stands e n) (he : ¬ Unbound e) :
    n.Grounded s := by
  obtain ⟨v, hv, htype⟩ := h
  obtain ⟨path, depth, l, hw, hl⟩ := exists_walk_of_bound hs hv he
  exact Node.Ends.grounded ⟨v.type, path, depth, htype, hw⟩ hl

theorem grounded_of_stands {es : List Entry} {nodes : List Node} (hs : Builtin s)
    (h : List.Forall₂ Stands es nodes) (hbound : ∀ e ∈ es, ¬ Unbound e) :
    ∀ n ∈ nodes, n.Grounded s := by
  intro n hn
  obtain ⟨e, he, hstands⟩ := exists_of_mem_of_forall₂ h hn
  exact hstands.grounded hs (hbound e he)

/-- The nodes of a method that have types. -/
def typed (m : Method) : List Node := m.args.map .argument ++ m.results.map .result

theorem exists_type?_of_mem_typed {n : Node} (h : n ∈ typed m) :
    ∃ t, n.type? = some t := by
  rcases List.mem_append.1 h with h | h
  · obtain ⟨v, -, rfl⟩ := List.mem_map.1 h
    exact ⟨v.type, rfl⟩
  · obtain ⟨v, -, rfl⟩ := List.mem_map.1 h
    exact ⟨v.type, rfl⟩

theorem validate_readNote (text : String) : (readNote text).validate =
    if isIdentifier (bareName text) then .ok ()
    else .error (.annotationRejected (bareName text) "name is not an identifier") := rfl

/-- Validation passes annotations that are well named after nodes that it passes. -/
theorem passes_of_named {nodes : List Node} {texts : List String}
    (hnodes : ∀ n ∈ nodes, n.validate s = .ok ()) (hnamed : ∀ text ∈ texts, ¬ Misnamed text) :
    Passes .validation s (nodes ++ texts.map fun text => .attached (readNote text)) s := by
  refine Scope.passes_of_validate (List.forall_mem_append.2 ⟨hnodes, fun n hn => ?_⟩)
  obtain ⟨text, htext, rfl⟩ := List.mem_map.1 hn
  change (readNote text).validate = _
  rw [validate_readNote, if_pos (isIdentifier_iff.2 (not_not.1 (hnamed text htext)))]

namespace Drawn

theorem stands (h : Drawn r name as rs m) : List.Forall₂ Stands (as ++ rs) (typed m) := by
  apply List.rel_append
  · exact List.forall₂_map_right_iff.2 (h.args.imp fun e v hv => ⟨v, hv, rfl⟩)
  · exact List.forall₂_map_right_iff.2 (h.results.imp fun e v hv => ⟨v, hv, rfl⟩)

theorem nodes_eq (h : Drawn r name as rs m) : m.nodes = typed m ++
    r.annotations.map (fun text => .attached (readNote text)) := by
  rw [Method.nodes, h.annotations_eq, List.map_map]
  rfl

theorem verdict_of_unbound (h : Drawn r name as rs m) (hs : Builtin s)
    (he : First Unbound (as ++ rs) e) : (m.analyze s).verdict =
      .error (.inMethod m.name m.location (.unresolvedType e.core e.location)) := by
  obtain ⟨before, after, heq, hbefore, he⟩ := he
  have hstands := h.stands
  rw [heq] at hstands
  obtain ⟨before', n, after', hvars, hstands', -, v, hv, htype⟩ :=
    exists_eq_append_of_forall₂ hstands
  -- The entries before `e` are bound, so the pass comes as far as the node of `e`.
  obtain ⟨s₁, path, hpasses, hresolved, -⟩ :=
    Scope.exists_passes_of_grounded (grounded_of_stands hs hstands' hbefore)
  obtain ⟨path', depth, ref, hw, href⟩ := exists_walk_of_unbound hs hv he
  have hn : (s₁.answer .evaluation n).1 = .error ref.unresolved := by
    rw [Scope.answer_evaluation]
    exact Scope.evaluate_of_ends hresolved ⟨_, path', depth, htype, hw⟩
  have hnodes := h.nodes_eq
  rw [hvars, List.append_assoc, List.cons_append] at hnodes
  rw [Method.analyze_of_error hnodes hpasses hn, href]
  rfl

theorem exists_passes (h : Drawn r name as rs m) (hs : Builtin s)
    (hbound : ∀ e ∈ as ++ rs, ¬ Unbound e) :
    ∃ s', Passes .evaluation s m.nodes s' ∧ ∀ n ∈ typed m, n.validate s' = .ok () := by
  have hgrounded : ∀ n ∈ m.nodes, n.Grounded s := by
    intro n hn
    rw [h.nodes_eq] at hn
    rcases List.mem_append.1 hn with hn | hn
    · exact grounded_of_stands hs h.stands hbound n hn
    · obtain ⟨text, -, rfl⟩ := List.mem_map.1 hn
      rfl
  obtain ⟨s', path, hpasses, -, hvalid⟩ := Scope.exists_passes_of_grounded hgrounded
  refine ⟨s', hpasses, fun n hn => ?_⟩
  obtain ⟨t, ht⟩ := exists_type?_of_mem_typed hn
  exact hvalid n (List.mem_append_left _ hn) t ht

theorem method_name_ne (h : Drawn r name as rs m) (hdraft : Drafted r name as rs) :
    m.name ≠ "" := by
  rw [h.name_eq]
  exact hdraft.name_ne

theorem results_ne_iff (h : Drawn r name as rs m) (hrs : Declares 2 1 r.results rs) :
    m.results ≠ [] ↔ r.results ≠ [] := by
  rw [← List.length_pos_iff, ← List.length_pos_iff, ← h.results.length_eq, hrs.length_eq]

theorem onewayWithResults_iff (h : Drawn r name as rs m) (hrs : Declares 2 1 r.results rs) :
    (m.oneway ∧ m.results ≠ []) ↔ (r.oneway ∧ r.results ≠ []) := by
  rw [h.oneway_eq, h.results_ne_iff hrs]

theorem verdict_of_oneway (h : Drawn r name as rs m) (hdraft : Drafted r name as rs)
    (hs : Builtin s) (hbound : ∀ e ∈ as ++ rs, ¬ Unbound e) (honeway : r.oneway)
    (hresults : r.results ≠ []) :
    (m.analyze s).verdict = .error (.inMethod m.name m.location .onewayWithResults) := by
  obtain ⟨s', hpasses, -⟩ := h.exists_passes hs hbound
  obtain ⟨honeway', hresults'⟩ := (h.onewayWithResults_iff hdraft.results).2 ⟨honeway, hresults⟩
  rw [Method.analyze_of_passes hpasses,
    Method.validate_of_fault
      (Method.fault?_of_oneway (h.method_name_ne hdraft) honeway' hresults')]
  rfl

/-- After the evaluation, nothing is left to fail but an annotation. -/
theorem exists_validation (h : Drawn r name as rs m) (hdraft : Drafted r name as rs)
    (hs : Builtin s) (hbound : ∀ e ∈ as ++ rs, ¬ Unbound e)
    (hsound : ¬ (r.oneway ∧ r.results ≠ [])) :
    ∃ s', (∀ n ∈ typed m, n.validate s' = .ok ()) ∧
      (m.analyze s).verdict = ((s'.visitAll .validation m.nodes).mapError m.wrap).verdict := by
  obtain ⟨s', hpasses, hvalid⟩ := h.exists_passes hs hbound
  have hsound' : ¬ (m.oneway ∧ m.results ≠ []) :=
    fun hm => hsound ((h.onewayWithResults_iff hdraft.results).1 hm)
  refine ⟨s', hvalid, ?_⟩
  rw [Method.analyze_of_passes hpasses,
    Method.validate_of_sound (Method.fault?_of_sound (h.method_name_ne hdraft) hsound')]

theorem verdict_of_misnamed {text : String} (h : Drawn r name as rs m)
    (hdraft : Drafted r name as rs) (hs : Builtin s) (hbound : ∀ e ∈ as ++ rs, ¬ Unbound e)
    (hsound : ¬ (r.oneway ∧ r.results ≠ [])) (htext : First Misnamed r.annotations text) :
    (m.analyze s).verdict = .error (.inMethod m.name m.location
      (.annotationRejected (bareName text) "name is not an identifier")) := by
  obtain ⟨s', hvalid, hverdict⟩ := h.exists_validation hdraft hs hbound hsound
  obtain ⟨before, after, heq, hbefore, htext⟩ := htext
  let note (text : String) : Node := .attached (readNote text)
  have hnodes : m.nodes = (typed m ++ before.map note) ++ note text :: after.map note := by
    rw [h.nodes_eq, heq, List.map_append, List.map_cons, List.append_assoc]
  have hn : (s'.answer .validation (note text)).1 =
      .error (.annotationRejected (bareName text) "name is not an identifier") := by
    change (readNote text).validate = _
    rw [validate_readNote, if_neg (isIdentifier_iff.not.2 htext)]
  rw [hverdict, hnodes, Scope.visitAll_of_error (passes_of_named hvalid hbefore) hn]
  rfl

theorem verdict_of_sound (h : Drawn r name as rs m) (hdraft : Drafted r name as rs)
    (hs : Builtin s) (hbound : ∀ e ∈ as ++ rs, ¬ Unbound e)
    (hsound : ¬ (r.oneway ∧ r.results ≠ [])) (hnamed : ∀ text ∈ r.annotations, ¬ Misnamed text) :
    (m.analyze s).verdict = .ok () := by
  obtain ⟨s', hvalid, hverdict⟩ := h.exists_validation hdraft hs hbound hsound
  rw [hverdict, h.nodes_eq, Scope.visitAll_of_passes (passes_of_named hvalid hnamed)]
  rfl

end Drawn

end Idl.Request
