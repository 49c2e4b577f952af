import Idl.Catalogue
import Idl.Proofs.Drafts
import Idl.Proofs.Frozen
import Idl.Proofs.Registration

/-!
# The roster of reserved methods

The reserved methods of an interface are declared with new references, so it makes no difference
what has been resolved in a scope before: as long as the builtin names mean the builtin types, every
catalogue is built, and the backends are told the same about its methods as about the entries.
-/

namespace Idl

open Ty (Walk)
open Scope (Steady)

theorem TypeExpr.walk_withRef {f : Ref → Option Ty} {r : Ref} {path : List Ref} {depth : Nat}
    {c : Ty.Core} (hw : Walk f (.ref r) path depth c) (e : TypeExpr) :
    Walk f (e.withRef r) path (depth + e.depth) c := by
  induction e with
  | name n => exact hw
  | vec e ih => exact .vec ih

/-- A type that is resolved leads where its walk promises, targets or not. -/
theorem Scope.Resolved.of_walk {s : Scope} {t : Ty} {path : List Ref} {depth depth' : Nat}
    {l l' : Leaf} (h : s.Resolved t depth' l') (hw : Walk s.next? t path depth (.leaf l)) :
    s.Resolved t depth l := by
  obtain ⟨path', hw'⟩ := h.exists_walk fun r u => Scope.next?_of_target?
  obtain ⟨-, rfl, hl⟩ := hw.unique hw'
  rw [Ty.Core.leaf.inj hl]
  exact h

theorem Scope.Resolved.shape_eq_of_walk {s : Scope} {t : Ty} {path : List Ref}
    {depth depth' : Nat} {l l' : Leaf} (h : s.Resolved t depth' l')
    (hw : Walk s.next? t path depth (.leaf l)) : s.shape t = (Shape.leaf l).vectors depth :=
  (h.of_walk hw).shape_eq

/-- What the name is bound to has a walk to a leaf that passes both checks. -/
def Scope.Bears (s : Scope) (name : String) : Prop :=
  ∃ t path depth l, s.lookup? name = some t ∧ Walk s.next? t path depth (.leaf l) ∧
    l.evaluate = .ok () ∧ l.validate = .ok ()

/-- Nothing about the method will fail when it is analysed in the scope. -/
structure Method.Ready (s : Scope) (m : Method) : Prop where
  fault?_eq : m.fault? = none
  annotations_eq : m.annotations = []
  grounded : ∀ n ∈ m.nodes, n.Grounded s

namespace Method

variable {s s' : Scope} {m : Method}

theorem Ready.of_steady (h : m.Ready s) (hs : Steady s s') : m.Ready s' :=
  ⟨h.fault?_eq, h.annotations_eq, fun n hn => (h.grounded n hn).of_steady hs⟩

/-- A method without annotations has no other nodes than arguments and results. -/
theorem exists_type?_of_mem_nodes (h : m.annotations = []) {n : Node} (hn : n ∈ m.nodes) :
    ∃ t, n.type? = some t := by
  rw [nodes, h, List.map_nil, List.append_nil] at hn
  exact Request.exists_type?_of_mem_typed hn

theorem Ready.analyze (h : m.Ready s) :
    (m.analyze s).verdict = .ok () ∧ m.Settled (m.analyze s).scope := by
  obtain ⟨s₁, path, hpasses, -, hvalid⟩ := Scope.exists_passes_of_grounded h.grounded
  have hnodes : ∀ n ∈ m.nodes, n.validate s₁ = .ok () := by
    intro n hn
    obtain ⟨t, ht⟩ := exists_type?_of_mem_nodes h.annotations_eq hn
    exact hvalid n hn t ht
  have hevaluate : (m.evaluate s).verdict = .ok () := by
    rw [evaluate, Scope.visitAll_of_passes hpasses]
    rfl
  refine ⟨?_, ?_⟩
  · rw [analyze_of_passes hpasses, validate_of_sound h.fault?_eq,
      Scope.visitAll_of_passes (Scope.passes_of_validate hnodes)]
    rfl
  · rw [scope_analyze]
    exact settled_of_evaluate_eq_ok hevaluate

end Method

/-- Methods that are ready are analysed one after the other, and all end up settled. -/
theorem Scope.analyzeAll_of_ready {s : Scope} {ms : List Method} (h : ∀ m ∈ ms, m.Ready s) :
    (s.analyzeAll ms).verdict = .ok () ∧ Steady s (s.analyzeAll ms).scope ∧
      s.Grows (s.analyzeAll ms).scope ∧ ∀ m ∈ ms, m.Settled (s.analyzeAll ms).scope := by
  induction ms generalizing s with
  | nil => exact ⟨rfl, .refl s, .refl s, nofun⟩
  | cons m rest ih =>
    obtain ⟨hm, hrest⟩ := List.forall_mem_cons.1 h
    obtain ⟨hverdict, hsettled⟩ := hm.analyze
    have hsteady := m.steady_analyze s
    obtain ⟨hverdict', hsteady', hgrows, hrest⟩ := ih fun m' hm' => (hrest m' hm').of_steady hsteady
    rw [analyzeAll, Report.andThen_of_ok hverdict]
    refine ⟨hverdict', hsteady.trans hsteady', (m.grows_analyze s).trans hgrows, ?_⟩
    exact List.forall_mem_cons.2 ⟨hsettled.of_grows hgrows, hrest⟩

namespace Catalogue

variable {s s' : Scope} {d : TypeExpr × String} {v : Var} {e : Entry} {m : Method} {t : Ty}
  {path : List Ref} {depth : Nat} {c : Ty.Core}

/-- What the type names of the entries stand for. -/
def leafNamed (name : String) : Leaf := if name = "handle" then .handle else .string

theorem checks_leafNamed (name : String) :
    (leafNamed name).evaluate = .ok () ∧ (leafNamed name).validate = .ok () := by
  unfold leafNamed
  split <;> exact ⟨rfl, rfl⟩

/-- What the backends are told about a declared variable. -/
def param (d : TypeExpr × String) : Param :=
  ⟨d.2, (Shape.leaf (leafNamed d.1.coreName)).vectors d.1.depth⟩

/-- What the backends are told about an entry. -/
def Entry.signature (e : Entry) : Signature := ⟨e.name, e.args.map param, e.results.map param, []⟩

/-- The variable is as declared, and its type refers by a name that is not resolved. -/
def Describes (s : Scope) (d : TypeExpr × String) (v : Var) : Prop :=
  v.name = d.2 ∧ ∃ r : Ref, r.name = d.1.coreName ∧ r.location = .empty ∧ s.target? r = none ∧
    v.type = d.1.withRef r

/-- The variable is as declared, and its type leads to what the name inside stands for. -/
def Rooted (s : Scope) (d : TypeExpr × String) (v : Var) : Prop :=
  v.name = d.2 ∧ ∃ path, Walk s.next? v.type path d.1.depth (.leaf (leafNamed d.1.coreName))

/-- The walk of a described variable goes on as that of what its name is bound to. -/
theorem Describes.exists_walk (h : Describes s d v) (hd : s.lookup? d.1.coreName = some t)
    (hw : Walk s.next? t path depth c) :
    ∃ r, Walk s.next? v.type (r :: path) (depth + d.1.depth) c := by
  obtain ⟨-, r, hr, -, htarget, htype⟩ := h
  have hnext : s.next? r = some t := by
    rw [Scope.next?_of_target?_eq_none htarget, hr, hd]
  exact ⟨r, htype ▸ d.1.walk_withRef (.hop hnext hw)⟩

theorem Describes.rooted (h : Describes s d v)
    (hd : s.lookup? d.1.coreName = some (.leaf (leafNamed d.1.coreName))) : Rooted s d v := by
  obtain ⟨r, hw⟩ := h.exists_walk hd (.leaf _)
  rw [Nat.zero_add] at hw
  exact ⟨h.1, [r], hw⟩

/-- The node is an argument or a result as declared. -/
def Stands (s : Scope) (d : TypeExpr × String) (n : Node) : Prop :=
  ∃ v, Describes s d v ∧ n.type? = some v.type

theorem Stands.grounded {n : Node} (h : Stands s d n) (hd : s.Bears d.1.coreName) :
    n.Grounded s := by
  obtain ⟨v, hv, htype⟩ := h
  obtain ⟨t, path, depth, l, ht, hw, hl⟩ := hd
  obtain ⟨r, hw'⟩ := hv.exists_walk ht hw
  exact Node.Ends.grounded ⟨v.type, _, _, htype, hw'⟩ hl

theorem Rooted.of_steady (h : Rooted s d v) (hs : Steady s s') : Rooted s' d v := by
  obtain ⟨hname, path, hw⟩ := h
  exact ⟨hname, path, hw.congr fun r _ => hs.next?_eq r⟩

theorem Rooted.param_eq (h : Rooted s d v) (hv : ∃ depth l, s.Resolved v.type depth l) :
    v.param s = param d := by
  obtain ⟨hname, path, hw⟩ := h
  obtain ⟨depth, l, hl⟩ := hv
  rw [Var.param, hl.shape_eq_of_walk hw, hname, param]

theorem declareVars_describes (s : Scope) (decls : List (TypeExpr × String)) :
    List.Forall₂ (Describes s) decls (declareVars s decls).1 ∧
      (declareVars s decls).2.bindings = s.bindings ∧
      (declareVars s decls).2.targets = s.targets := by
  induction decls generalizing s with
  | nil => exact ⟨.nil, rfl, rfl⟩
  | cons d rest ih =>
    obtain ⟨type, name⟩ := d
    obtain ⟨hrest, hbindings, htargets⟩ := ih (s.instantiate type .empty).2
    refine ⟨.cons ⟨rfl, (s.refer type.coreName .empty).1, rfl, rfl, s.target?_refer _ _, rfl⟩ ?_,
      hbindings, htargets⟩
    exact hrest

theorem describes_of_targets_eq (h : s'.targets = s.targets) : Describes s' = Describes s := by
  have htarget : s'.target? = s.target? := by
    funext r
    rw [Scope.target?, Scope.target?, h]
  unfold Describes
  rw [htarget]

/-- What makes an entry declare a method that nothing is wrong with. -/
structure Entry.Sound (e : Entry) : Prop where
  name_ne : e.name ≠ ""
  args_nodup : (e.args.map Prod.snd).Nodup
  results_nodup : (e.results.map Prod.snd).Nodup
  resultless : ¬ (e.oneway = true ∧ e.results ≠ [])
  named : ∀ d ∈ e.args ++ e.results, d.1.coreName = "string" ∨ d.1.coreName = "handle"
  native : ∃ t, BodyTable.ofList .native e.native = .ok t
  managed : ∃ t, BodyTable.ofList .managed e.managed = .ok t

theorem sound_of_mem_entries {interface : String} {chain : List String}
    (h : e ∈ entries interface chain) : e.Sound := by
  simp only [entries, List.mem_cons, List.not_mem_nil, or_false] at h
  rcases h with rfl | rfl | rfl | rfl | rfl | rfl <;>
    exact ⟨of_decide_eq_true rfl, of_decide_eq_true rfl, of_decide_eq_true rfl,
      of_decide_eq_true rfl, of_decide_eq_true rfl, ⟨_, rfl⟩, ⟨_, rfl⟩⟩

/-- The method is declared and reserved as the entry says. -/
structure Entry.Declares (s : Scope) (e : Entry) (m : Method) : Prop where
  name_eq : m.name = e.name
  args : List.Forall₂ (Describes s) e.args m.args
  results : List.Forall₂ (Describes s) e.results m.results
  oneway_eq : m.oneway = e.oneway
  annotations_eq : m.annotations = []
  location_eq : m.location = .empty
  standing_eq : ∃ native managed, BodyTable.ofList .native e.native = .ok native ∧
    BodyTable.ofList .managed e.managed = .ok managed ∧
    m.standing = .reserved e.serial native managed

theorem Entry.Declares.of_targets_eq (h : e.Declares s m) (htargets : s.targets = s'.targets) :
    e.Declares s' m := by
  have hdescribes := describes_of_targets_eq htargets
  exact ⟨h.name_eq, hdescribes ▸ h.args, hdescribes ▸ h.results, h.oneway_eq, h.annotations_eq,
    h.location_eq, h.standing_eq⟩

theorem Entry.declare_eq_bind (e : Entry) (s : Scope) :
    e.declare s =
      let args := declareVars s e.args
      let results := declareVars args.2 e.results
      ((VarList.ofList args.1).mapError Failure.semantic).bind fun as =>
        ((VarList.ofList results.1).mapError Failure.semantic).bind fun rs =>
          ((BodyTable.ofList .native e.native).mapError Failure.reservation).bind fun native =>
            ((BodyTable.ofList .managed e.managed).mapError Failure.reservation).bind fun managed =>
              let declared := results.2.declare e.name as rs e.oneway [] .empty
              (declared.1.reserve e.serial native managed).bind fun m => .ok (m, declared.2) := rfl

theorem Entry.Sound.exists_declare_eq_ok (h : e.Sound) (s : Scope) :
    ∃ m s', e.declare s = .ok (m, s') ∧ e.Declares s m ∧ s'.bindings = s.bindings ∧
      s'.targets = s.targets := by
  obtain ⟨hargs, hbindings, htargets⟩ := declareVars_describes s e.args
  obtain ⟨hresults, hbindings', htargets'⟩ :=
    declareVars_describes (declareVars s e.args).2 e.results
  rw [describes_of_targets_eq htargets] at hresults
  have hargNames := map_eq_map_of_forall₂ hargs fun _ _ _ hv => hv.1
  have hresultNames := map_eq_map_of_forall₂ hresults fun _ _ _ hv => hv.1
  obtain ⟨as, has, hasVars⟩ := VarList.exists_ofList_eq_ok (hargNames ▸ h.args_nodup)
  obtain ⟨rs, hrs, hrsVars⟩ := VarList.exists_ofList_eq_ok (hresultNames ▸ h.results_nodup)
  obtain ⟨native, hnative⟩ := h.native
  obtain ⟨managed, hmanaged⟩ := h.managed
  let s₂ := (declareVars (declareVars s e.args).2 e.results).2
  let declared := s₂.declare e.name as rs e.oneway [] .empty
  let m : Method := { declared.1 with standing := .reserved e.serial native managed }
  have hreserve : declared.1.reserve e.serial native managed = .ok m := by
    unfold Method.reserve
    rw [if_neg (not_not_intro (BodyTable.backend_of_ofList hnative)),
      if_neg (not_not_intro (BodyTable.backend_of_ofList hmanaged))]
    rfl
  rw [← hasVars] at hargs
  rw [← hrsVars] at hresults
  refine ⟨m, declared.2, ?_,
    ⟨rfl, hargs, hresults, rfl, rfl, rfl, native, managed, hnative, hmanaged, rfl⟩,
    hbindings'.trans hbindings, htargets'.trans htargets⟩
  rw [Entry.declare_eq_bind]
  simp only [has, hrs, hnative, hmanaged, Except.mapError, Except.bind]
  rw [hreserve]

theorem exists_declareAll_eq_ok {es : List Entry} (h : ∀ e ∈ es, e.Sound) (s : Scope) :
    ∃ ms s', declareAll s es = .ok (ms, s') ∧ List.Forall₂ (Entry.Declares s) es ms ∧
      s'.bindings = s.bindings ∧ s'.targets = s.targets := by
  induction es generalizing s with
  | nil => exact ⟨[], s, rfl, .nil, rfl, rfl⟩
  | cons e rest ih =>
    obtain ⟨he, hrest⟩ := List.forall_mem_cons.1 h
    obtain ⟨m, s₁, hm, hdeclares, hbindings, htargets⟩ := he.exists_declare_eq_ok s
    obtain ⟨ms, s', hms, hrest, hbindings', htargets'⟩ := ih hrest s₁
    refine ⟨m :: ms, s', ?_, .cons hdeclares (hrest.imp fun _ _ hm => hm.of_targets_eq htargets),
      hbindings'.trans hbindings, htargets'.trans htargets⟩
    change (e.declare s).bind _ = _
    rw [hm]
    change (declareAll s₁ rest).bind _ = _
    rw [hms]
    rfl

/-- In the scope the names of the builtin types mean these. -/
def Standard (s : Scope) : Prop := ∀ name, s.lookup? name = Scope.builtins.lookup name

theorem standard_initial : Standard .initial := fun _ => rfl

theorem Standard.of_steady (h : Standard s) (hs : Steady s s') : Standard s' :=
  fun name => (hs.lookup?_eq name).trans (h name)

theorem Standard.of_bindings_eq (h : Standard s) (hbindings : s'.bindings = s.bindings) :
    Standard s' := by
  intro name
  rw [Scope.lookup?, hbindings]
  exact h name

theorem Standard.lookup?_eq (h : Standard s) {name : String}
    (hname : name = "string" ∨ name = "handle") :
    s.lookup? name = some (.leaf (leafNamed name)) := by
  rw [h]
  rcases hname with rfl | rfl <;> rfl

theorem Standard.bears (h : Standard s) {name : String}
    (hname : name = "string" ∨ name = "handle") : s.Bears name :=
  ⟨_, [], 0, _, h.lookup?_eq hname, .leaf _, checks_leafNamed name⟩

theorem rooted_of_describes {decls : List (TypeExpr × String)} {vs : List Var} (hs : Standard s)
    (h : List.Forall₂ (Describes s) decls vs)
    (hnamed : ∀ d ∈ decls, d.1.coreName = "string" ∨ d.1.coreName = "handle") :
    List.Forall₂ (Rooted s) decls vs := by
  refine ((List.forall₂_and_left decls vs).2 ⟨hnamed, h⟩).imp ?_
  rintro d v ⟨hd, hv⟩
  exact hv.rooted (hs.lookup?_eq hd)

theorem map_param_of_rooted {decls : List (TypeExpr × String)} {vs : List Var}
    (h : List.Forall₂ (Rooted s) decls vs)
    (hvs : ∀ v ∈ vs, ∃ depth l, s.Resolved v.type depth l) :
    vs.map (Var.param s) = decls.map param :=
  map_eq_map_of_forall₂ h fun _ v hv hrooted => hrooted.param_eq (hvs v hv)

/-- In the scope the method has the signature and the standing of the entry. -/
structure Entry.Recorded (s : Scope) (e : Entry) (m : Method) : Prop where
  signature_eq : m.signature s = e.signature
  standing_eq : ∃ native managed, BodyTable.ofList .native e.native = .ok native ∧
    BodyTable.ofList .managed e.managed = .ok managed ∧
    m.standing = .reserved e.serial native managed

namespace Entry.Declares

theorem fault?_eq (h : e.Declares s m) (he : e.Sound) : m.fault? = none := by
  have hresultless : ¬ (m.oneway = true ∧ m.results ≠ []) := by
    rw [h.oneway_eq, ← List.length_pos_iff, ← h.results.length_eq, List.length_pos_iff]
    exact he.resultless
  exact Method.fault?_of_sound (h.name_eq ▸ he.name_ne) hresultless

theorem rooted (h : e.Declares s m) (he : e.Sound) (hs : Standard s) :
    List.Forall₂ (Rooted s) e.args m.args ∧ List.Forall₂ (Rooted s) e.results m.results := by
  obtain ⟨hargs, hresults⟩ := List.forall_mem_append.1 he.named
  exact ⟨rooted_of_describes hs h.args hargs, rooted_of_describes hs h.results hresults⟩

theorem nodes (h : e.Declares s m) : List.Forall₂ (Stands s) (e.args ++ e.results) m.nodes := by
  rw [Method.nodes, h.annotations_eq, List.map_nil, List.append_nil]
  apply List.rel_append
  · exact List.forall₂_map_right_iff.2 (h.args.imp fun _ v hv => ⟨v, hv, rfl⟩)
  · exact List.forall₂_map_right_iff.2 (h.results.imp fun _ v hv => ⟨v, hv, rfl⟩)

theorem ready (h : e.Declares s m) (he : e.Sound)
    (hs : ∀ d ∈ e.args ++ e.results, s.Bears d.1.coreName) : m.Ready s := by
  refine ⟨h.fault?_eq he, h.annotations_eq, fun n hn => ?_⟩
  obtain ⟨d, hd, hstands⟩ := exists_of_mem_of_forall₂ h.nodes hn
  exact hstands.grounded (hs d hd)

/-- Once it is settled, the method is as the entry says. -/
theorem recorded (h : e.Declares s m) (he : e.Sound) (hs : Standard s) (hsteady : Steady s s')
    (hsettled : m.Settled s') : e.Recorded s' m := by
  obtain ⟨hargs, hresults⟩ := h.rooted he hs
  have hargs' := map_param_of_rooted (hargs.imp fun _ _ hd => hd.of_steady hsteady)
    fun v hv => hsettled (.argument v) (by simp [Method.nodes, hv])
  have hresults' := map_param_of_rooted (hresults.imp fun _ _ hd => hd.of_steady hsteady)
    fun v hv => hsettled (.result v) (by simp [Method.nodes, hv])
  refine ⟨?_, h.standing_eq⟩
  rw [Method.signature, hargs', hresults', h.name_eq, h.annotations_eq, Entry.signature]

end Entry.Declares

/-- Where both names that entries use bear the checks, all methods are ready. -/
theorem ready_of_declares {es : List Entry} {ms : List Method} (hsound : ∀ e ∈ es, e.Sound)
    (h : List.Forall₂ (Entry.Declares s) es ms)
    (hs : ∀ name, name = "string" ∨ name = "handle" → s.Bears name) : ∀ m ∈ ms, m.Ready s := by
  intro m hm
  obtain ⟨e, he, hdeclares⟩ := exists_of_mem_of_forall₂ h hm
  exact hdeclares.ready (hsound e he) fun d hd => hs _ ((hsound e he).named d hd)

theorem build_eq_bind (s : Scope) (interface : String) (chain : List String) :
    build s interface chain = (draft s interface chain).bind fun drafted =>
      ((drafted.2.analyzeAll drafted.1).verdict.mapError Failure.semantic).bind fun _ =>
        .ok (drafted.1, (drafted.2.analyzeAll drafted.1).scope) := rfl

/-- Where the builtin names mean the builtin types, the catalogue of every interface is built, and
its methods are those of its entries. -/
theorem exists_build_eq_ok (hs : Standard s) (interface : String) (chain : List String) :
    ∃ ms s', build s interface chain = .ok (ms, s') ∧
      List.Forall₂ (Entry.Recorded s') (entries interface chain) ms := by
  have hsound : ∀ e ∈ entries interface chain, e.Sound := fun _ => sound_of_mem_entries
  obtain ⟨ms, s₁, hdraft, hdeclares, hbindings, htargets⟩ := exists_declareAll_eq_ok hsound s
  have hs₁ := hs.of_bindings_eq hbindings
  have hdeclares₁ := hdeclares.imp fun _ _ hm => hm.of_targets_eq htargets.symm
  have hready := ready_of_declares hsound hdeclares₁ fun _ hname => hs₁.bears hname
  obtain ⟨hverdict, hsteady, -, hsettled⟩ := Scope.analyzeAll_of_ready hready
  refine ⟨ms, (s₁.analyzeAll ms).scope, ?_, ?_⟩
  · rw [build_eq_bind, draft, hdraft, Except.bind, hverdict]
    rfl
  · refine List.forall₂_iff_zip.2 ⟨hdeclares₁.length_eq, fun {e m} hem => ?_⟩
    obtain ⟨he, hm⟩ := List.of_mem_zip hem
    exact (List.forall₂_zip hdeclares₁ hem).recorded (hsound e he) hs₁ hsteady (hsettled m hm)

end Catalogue
end Idl
