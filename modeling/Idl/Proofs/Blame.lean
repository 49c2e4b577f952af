import Idl.Proofs.Circular
import Idl.Proofs.Roster

/-!
# Which failure is reported

A type is checked by evaluating it and then validating what that resolves. Either check says what
the end of the walk says, so a method that stands on firm ground but for one node fails by the
checks of that node, whichever of them it is. Of several methods the first such one is reported.
-/

namespace Idl

open Ty (Walk Core)
open Scope (Steady)

variable {s s' : Scope} {t : Ty} {path : List Ref} {depth : Nat} {c : Core} {d : Diagnostic}

namespace Ty.Core

def check (c : Core) : Verdict := c.evaluate.bind fun _ => c.validate

theorem check_eq_ok_iff :
    c.check = .ok () ↔ ∃ l, c = .leaf l ∧ l.evaluate = .ok () ∧ l.validate = .ok () := by
  constructor
  · intro h
    cases c with
    | leaf l =>
      change l.evaluate.bind _ = _ at h
      cases hl : l.evaluate with
      | ok u =>
        rw [hl] at h
        exact ⟨l, rfl, hl, h⟩
      | error d =>
        rw [hl] at h
        cases h
    | ref r => cases h
  · rintro ⟨l, rfl, hevaluate, hvalidate⟩
    change l.evaluate.bind _ = _
    rw [hevaluate]
    exact hvalidate

theorem check_eq_error_iff : c.check = .error d ↔
    c.evaluate = .error d ∨ c.evaluate = .ok () ∧ c.validate = .error d := by
  unfold check
  cases c.evaluate with
  | ok u => simp [Except.bind]
  | error d' => simp [Except.bind]

end Ty.Core

namespace Scope

/-- Evaluates a type and validates what that resolves. -/
def check (s : Scope) (t : Ty) : Verdict :=
  (s.evaluate t).1.bind fun _ => (s.evaluate t).2.validate t

theorem check_of_walk (hw : Walk s.next? t path depth c) : s.check t = c.check := by
  obtain ⟨hverdict, halong⟩ := evaluate_of_walk hw
  rw [check, hverdict, halong.validate_eq hw (List.Subset.refl path), Core.check]

/-- What checking the type says that the name is bound to. -/
def verdictOf (s : Scope) (name : String) : Verdict :=
  match s.lookup? name with
  | some t => s.check t
  | none => .error (.unresolvedType name .empty)

theorem evaluate_eq_ok_of_check (h : s.check t = .ok ()) : (s.evaluate t).1 = .ok () := by
  unfold check at h
  cases hverdict : (s.evaluate t).1 with
  | ok u => rfl
  | error d =>
    rw [hverdict] at h
    cases h

theorem bears_of_verdictOf {name : String} (h : s.verdictOf name = .ok ()) : s.Bears name := by
  unfold verdictOf at h
  cases ht : s.lookup? name with
  | none =>
    rw [ht] at h
    cases h
  | some t =>
    rw [ht] at h
    change s.check t = _ at h
    obtain ⟨path, depth, l, hw, -⟩ := evaluate_eq_ok_iff.1 (evaluate_eq_ok_of_check h)
    rw [check_of_walk hw] at h
    obtain ⟨l', hl', hchecks⟩ := Core.check_eq_ok_iff.1 h
    cases hl'
    exact ⟨t, path, depth, l, ht, hw, hchecks⟩

end Scope

/-- Nothing is wrong with the method but the type of one node, which fails its checks. -/
structure Method.Faulty (s : Scope) (m : Method) (d : Diagnostic) : Prop where
  fault?_eq : m.fault? = none
  annotations_eq : m.annotations = []
  exists_node : ∃ before n after c, m.nodes = before ++ n :: after ∧
    (∀ n' ∈ before ++ after, n'.Grounded s) ∧ n.Ends s c ∧ c.check = .error d

namespace Method

variable {m : Method}

theorem Faulty.of_steady (h : m.Faulty s d) (hs : Steady s s') : m.Faulty s' d := by
  obtain ⟨before, n, after, c, hnodes, hgrounded, hends, hc⟩ := h.exists_node
  exact ⟨h.fault?_eq, h.annotations_eq, before, n, after, c, hnodes,
    fun n' hn' => (hgrounded n' hn').of_steady hs, hends.of_steady hs, hc⟩

theorem Faulty.verdict_analyze (h : m.Faulty s d) :
    (m.analyze s).verdict = .error (m.wrap d) := by
  obtain ⟨before, n, after, c, hnodes, hgrounded, hends, hc⟩ := h.exists_node
  obtain ⟨hbefore, hafter⟩ := List.forall_mem_append.1 hgrounded
  rcases Core.check_eq_error_iff.1 hc with hevaluate | ⟨hevaluate, hvalidate⟩
  · obtain ⟨s₁, path, hpasses, halong, -⟩ := Scope.exists_passes_of_grounded hbefore
    have hn : (s₁.answer .evaluation n).1 = .error d := by
      rw [Scope.answer_evaluation]
      exact (Scope.evaluate_of_ends halong hends).trans hevaluate
    rw [analyze_of_error hnodes hpasses hn]
  · -- All nodes evaluate, and validation comes as far as this one.
    have hn : (n.evaluate s).1 = .ok () := (Scope.evaluate_of_ends (.nil s) hends).trans hevaluate
    have hall : ∀ n' ∈ before ++ n :: after, (n'.evaluate s).1 = .ok () := by
      refine List.forall_mem_append.2 ⟨fun n' hn' => (hbefore n' hn').evaluate_eq_ok, ?_⟩
      exact List.forall_mem_cons.2 ⟨hn, fun n' hn' => (hafter n' hn').evaluate_eq_ok⟩
    obtain ⟨s', path, hpasses, -, hvalid⟩ := Scope.exists_passes_of_evaluate_eq_ok hall
    have hvalidBefore : ∀ n' ∈ before, n'.validate s' = .ok () := by
      intro n' hn'
      have hmem := List.mem_append_left (n :: after) hn'
      obtain ⟨t, ht⟩ := exists_type?_of_mem_nodes h.annotations_eq (hnodes ▸ hmem)
      obtain ⟨l, hl, hok⟩ := (hbefore n' hn').exists_ends ht
      exact (hvalid n' hmem _ hl).trans hok
    have hinvalid : (s'.answer .validation n).1 = .error d := by
      rw [Scope.answer_validation]
      exact (hvalid n (List.mem_append_right before List.mem_cons_self) c hends).trans hvalidate
    have hvisits :=
      Scope.visitAll_of_error (Scope.passes_of_validate hvalidBefore) hinvalid after
    rw [analyze_of_passes (hnodes ▸ hpasses), validate_of_sound h.fault?_eq, hnodes, hvisits]
    rfl

end Method

/-- A faulty method is reported if all methods before it are ready. -/
theorem Scope.analyzeAll_of_faulty {before : List Method} {m : Method}
    (hbefore : ∀ m' ∈ before, m'.Ready s) (hm : m.Faulty s d) (after : List Method) :
    (s.analyzeAll (before ++ m :: after)).verdict = .error (m.wrap d) := by
  induction before generalizing s with
  | nil =>
    rw [List.nil_append, analyzeAll, Report.andThen_of_error hm.verdict_analyze]
    exact hm.verdict_analyze
  | cons m' rest ih =>
    obtain ⟨hm', hrest⟩ := List.forall_mem_cons.1 hbefore
    have hsteady := m'.steady_analyze s
    rw [List.cons_append, analyzeAll, Report.andThen_of_ok hm'.analyze.1]
    exact ih (fun m'' hm'' => (hrest m'' hm'').of_steady hsteady) (hm.of_steady hsteady)

namespace Catalogue

variable {decl : TypeExpr × String} {e : Entry} {m : Method} {n : Node}

/-- The walk of a node that stands for a declaration ends as that of its name does. -/
theorem Stands.exists_ends (h : Stands s decl n)
    (hwalks : ∀ t, s.lookup? decl.1.coreName = some t → ¬ s.Circular t) :
    ∃ c, n.Ends s c ∧ c.check = s.verdictOf decl.1.coreName := by
  obtain ⟨v, hv, htype⟩ := h
  unfold Scope.verdictOf
  cases hlookup : s.lookup? decl.1.coreName with
  | some t =>
    obtain ⟨path, depth, c, hw⟩ := Scope.exists_walk_iff_not_circular.2 (hwalks t hlookup)
    obtain ⟨r, hw'⟩ := hv.exists_walk hlookup hw
    exact ⟨c, ⟨v.type, _, _, htype, hw'⟩, (Scope.check_of_walk hw).symm⟩
  | none =>
    obtain ⟨-, r, hname, hlocation, htarget, hvtype⟩ := hv
    have hnext : s.next? r = none := by
      rw [Scope.next?_of_target?_eq_none htarget, hname, hlookup]
    have hw : Walk s.next? v.type [r] (0 + decl.1.depth) (.ref r) :=
      hvtype ▸ decl.1.walk_withRef (.stop hnext)
    refine ⟨.ref r, ⟨v.type, _, _, htype, hw⟩, ?_⟩
    rw [← hname, ← hlocation]
    rfl

/-- Of an entry with one name that fails its checks comes a faulty method. -/
theorem Entry.Declares.faulty (h : e.Declares s m) (he : e.Sound)
    {before after : List (TypeExpr × String)}
    (hdecls : e.args ++ e.results = before ++ decl :: after)
    (hothers : ∀ decl' ∈ before ++ after, s.Bears decl'.1.coreName)
    (hwalks : ∀ t, s.lookup? decl.1.coreName = some t → ¬ s.Circular t)
    (hd : s.verdictOf decl.1.coreName = .error d) : m.Faulty s d := by
  have hnodes := h.nodes
  rw [hdecls] at hnodes
  obtain ⟨before', n, after', heq, hbefore, hafter, hn⟩ := exists_eq_append_of_forall₂ hnodes
  obtain ⟨c, hends, hc⟩ := hn.exists_ends hwalks
  refine ⟨h.fault?_eq he, h.annotations_eq, before', n, after', c, heq, fun n' hn' => ?_, hends,
    hc.trans hd⟩
  obtain ⟨decl', hdecl', hstands⟩ := exists_of_mem_of_forall₂ (List.rel_append hbefore hafter) hn'
  exact hstands.grounded (hothers decl' hdecl')

end Catalogue
end Idl
