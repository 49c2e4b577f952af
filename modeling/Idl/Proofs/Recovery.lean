import Idl.Proofs.First
import Idl.Proofs.Grounded

/-!
# Failed resolutions can be taken up again

The evaluation of a type fails at the first reference on its walk that leads nowhere. The references
before it have been resolved by then and stay so, whatever is bound later. So it is enough to bind
the missing name to a type that evaluates: then the walk goes on from there and comes to a leaf.
-/

namespace Idl

namespace Ty.Walk

variable {f g : Ref → Option Ty} {t u : Ty} {path path' : List Ref} {depth depth' : Nat}
  {c : Core} {r : Ref}

/-- The reference that a walk stops at is the first that leads nowhere. -/
theorem first_of_ref (hw : Walk f t path depth (.ref r)) :
    First (fun r' => f r' = none) path r := by
  generalize hc : Core.ref r = c at hw
  induction hw with
  | leaf l => cases hc
  | vec _ ih => exact ih hc
  | @hop r' _ _ _ _ hr' _ ih =>
    obtain ⟨before, after, rfl, hbefore, hr⟩ := ih hc
    have hne : f r' ≠ none := by
      rw [hr']
      exact nofun
    exact ⟨r' :: before, after, rfl, List.forall_mem_cons.2 ⟨hne, hbefore⟩, hr⟩
  | stop hr =>
    cases hc
    exact ⟨[], [], rfl, nofun, hr⟩

theorem eq_ref_of_first (hw : Walk f t path depth c) (hr : First (fun r' => f r' = none) path r) :
    c = .ref r := by
  rcases hw.isSome_or_eq_end hr.mem with hsome | hc
  · rw [hr.holds] at hsome
    cases hsome
  · exact hc

/-- A walk that stopped goes on where its last reference leads somewhere, if those before it lead
where they led. -/
theorem extend (hw : Walk f t path depth (.ref r))
    (hg : ∀ r' ∈ path, ∀ v, f r' = some v → g r' = some v) (hr : g r = some u)
    (hw' : Walk g u path' depth' c) : Walk g t (path ++ path') (depth + depth') c := by
  generalize hend : Core.ref r = e at hw
  induction hw with
  | leaf l => cases hend
  | vec _ ih =>
    rw [Nat.add_right_comm]
    exact .vec (ih hg hend)
  | hop hr' _ ih =>
    refine .hop (hg _ List.mem_cons_self _ hr') (ih ?_ hend)
    exact fun r'' hmem => hg r'' (List.mem_cons_of_mem _ hmem)
  | stop _ =>
    cases hend
    rw [Nat.zero_add]
    exact .hop hr hw'

end Ty.Walk

namespace Scope

open Ty (Walk Core)

variable {s : Scope} {t : Ty} {path : List Ref} {depth : Nat} {c : Core} {r : Ref}

/-- Binds names one after the other. -/
def bindAll (s : Scope) (calls : List (String × Ty)) : Scope :=
  calls.foldl (fun s b => s.bind b.1 b.2) s

theorem target?_bindAll (s : Scope) (calls : List (String × Ty)) (r : Ref) :
    (s.bindAll calls).target? r = s.target? r := by
  induction calls generalizing s with
  | nil => rfl
  | cons b rest ih => exact (ih (s.bind b.1 b.2)).trans (s.target?_bind b.1 b.2 r)

theorem bindings_follow (n : Nat) (s : Scope) (t : Ty) :
    (follow n s t).2.bindings = s.bindings := by
  have hresolve : ∀ (s : Scope) (r : Ref), (s.resolve r).2.bindings = s.bindings := by
    intro s r
    unfold resolve
    cases s.target? r with
    | some u => rfl
    | none => cases s.lookup? r.name <;> rfl
  induction n generalizing s t with
  | zero =>
    cases ht : t.core with
    | leaf l => simp only [follow, ht]
    | ref r =>
      simp only [follow, ht]
      rfl
  | succ n ih =>
    cases ht : t.core with
    | leaf l => simp only [follow, ht]
    | ref r =>
      simp only [follow, ht, settle_succ]
      cases s.next? r with
      | none => exact hresolve s r
      | some u => exact (ih _ u).trans (hresolve s r)

/-- After a failure at `r`, a binding of its name that evaluates makes the type evaluate, whatever
else is bound with it. -/
theorem evaluate_bindAll (hw : Walk s.next? t path depth (.ref r)) (calls : List (String × Ty))
    {u : Ty} (hu : ((s.evaluate t).2.bindAll calls).lookup? r.name = some u)
    (hok : (((s.evaluate t).2.bindAll calls).evaluate u).1 = .ok ()) :
    (((s.evaluate t).2.bindAll calls).evaluate t).1 = .ok () := by
  have halong := (evaluate_of_walk hw).2
  generalize hlater : (s.evaluate t).2.bindAll calls = later at hu hok
  have htarget : ∀ r' ∈ path, later.target? r' = s.next? r' := by
    intro r' hr'
    rw [← hlater, target?_bindAll, halong.target?_eq, if_pos hr']
  have hfirst := hw.first_of_ref
  have hnext : ∀ r' ∈ path, ∀ v, s.next? r' = some v → later.next? r' = some v :=
    fun r' hr' v hv => next?_of_target? ((htarget r' hr').trans hv)
  have hlast : later.next? r = some u :=
    (next?_of_target?_eq_none ((htarget r hfirst.mem).trans hfirst.holds)).trans hu
  obtain ⟨path', depth', l, hw', hl⟩ := evaluate_eq_ok_iff.1 hok
  exact evaluate_eq_ok_iff.2 ⟨_, _, l, hw.extend hnext hlast hw', hl⟩

/-- Where the walk of a type comes to an end, and not in a leaf that fails a check of its own, the
type evaluates if and only if that end is a leaf; otherwise it fails with the first reference of the
walk that leads nowhere. Evaluation resolves the references of the walk and leaves all else as it
is, and validation then says the same. After a failure, it is enough to bind the name of that
reference to a type that evaluates. -/
theorem evaluate_follows_walk_and_recovers (hw : Walk s.next? t path depth c)
    (hleaf : ∀ l, c = .leaf l → l.evaluate = .ok () ∧ l.validate = .ok ()) :
    let verdict := (s.evaluate t).1
    let after := (s.evaluate t).2
    (∀ n, path.length ≤ n → follow n s t = s.evaluate t) ∧
      (verdict = .ok () ↔ ∃ l, c = .leaf l) ∧
      (∀ d, verdict = .error d ↔ ∃ r, First (fun r => s.next? r = none) path r ∧
        d = .unresolvedType r.name r.location) ∧
      after.bindings = s.bindings ∧
      (∀ r u, s.target? r = some u → after.target? r = some u) ∧
      (∀ r, after.target? r = if r ∈ path then s.next? r else s.target? r) ∧
      (∀ n : Node, n.type? = some t →
        after.visit .validation n = ⟨after, [⟨.validation, n⟩], verdict⟩) ∧
      ∀ r, First (fun r => s.next? r = none) path r → ∀ (calls : List (String × Ty)) (u : Ty),
        let later := after.bindAll calls
        later.lookup? r.name = some u → (later.evaluate u).1 = .ok () →
          (later.evaluate t).1 = .ok () := by
  intro verdict after
  obtain ⟨hverdict, halong⟩ := evaluate_of_walk hw
  have hvalidate : after.validate t = verdict := by
    rw [halong.validate_eq hw (List.Subset.refl path)]
    refine Eq.trans ?_ hverdict.symm
    cases c with
    | leaf l =>
      obtain ⟨hevaluate, hl⟩ := hleaf l rfl
      exact hl.trans hevaluate.symm
    | ref r => rfl
  refine ⟨fun n hn => follow_eq_of_walk hw (fun _ => rfl) hn (length_le_hops hw), ?_, fun d => ?_,
    bindings_follow s.hops s t, fun r u => target?_evaluate_of_some t, halong.target?_eq,
    fun n hn => ?_, fun r hr calls u => ?_⟩
  · change (s.evaluate t).1 = _ ↔ _
    rw [hverdict]
    cases c with
    | leaf l => exact ⟨fun _ => ⟨l, rfl⟩, fun _ => (hleaf l rfl).1⟩
    | ref r => exact ⟨nofun, nofun⟩
  · change (s.evaluate t).1 = _ ↔ _
    rw [hverdict]
    constructor
    · intro hd
      cases c with
      | leaf l =>
        rw [Core.evaluate, (hleaf l rfl).1] at hd
        cases hd
      | ref r => exact ⟨r, hw.first_of_ref, (Except.error.inj hd).symm⟩
    · rintro ⟨r, hr, rfl⟩
      rw [hw.eq_ref_of_first hr]
      rfl
  · rw [visit, Node.validate_of_type? hn]
    exact congrArg (Report.mk after _) hvalidate
  · intro later hu hok
    obtain rfl := hw.eq_ref_of_first hr
    exact evaluate_bindAll hw calls hu hok

/-- The missing name is bound at last, after the alias that led to it has been bound anew. -/
theorem recovers_through_old_alias :
    let s := (Scope.initial.bind "Reply" (.vec (.ref ⟨0, "Status", .empty⟩))).bind "Status"
      (.ref ⟨1, "Code", .point "types.hal" 3 7⟩)
    let t : Ty := .vec (.ref ⟨2, "Reply", .empty⟩)
    (s.evaluate t).1 = .error (.unresolvedType "Code" (.point "types.hal" 3 7)) ∧
      ((((s.evaluate t).2.bindAll [("Reply", .handle), ("Code", .scalar .int32)]).evaluate t).1 =
        .ok ()) := by
  intro s t
  let code : Ref := ⟨1, "Code", .point "types.hal" 3 7⟩
  have hw : Walk s.next? t [⟨2, "Reply", .empty⟩, ⟨0, "Status", .empty⟩, code] 2 (.ref code) :=
    .vec (.hop rfl (.vec (.hop rfl (.stop rfl))))
  obtain ⟨-, -, herror, -, -, -, -, hrecovers⟩ := evaluate_follows_walk_and_recovers hw nofun
  exact ⟨(herror _).2 ⟨code, hw.first_of_ref, rfl⟩,
    hrecovers code hw.first_of_ref _ (.scalar .int32) rfl rfl⟩

end Scope
end Idl
