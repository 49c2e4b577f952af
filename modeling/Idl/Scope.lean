import Idl.Ty.Expr

/-!
# Scopes

A scope binds names to types and remembers which references have been resolved, and to what. A
name may be bound anew; a resolved reference keeps its target. Evaluating a type resolves the
references on its way to a leaf, each against the bindings of that moment. All identities in a
scope lie below the next one, so a new reference is never taken for an older one.
-/

namespace Idl

structure Scope where
  /-- Newest first, so a new binding hides an older one of the same name. -/
  bindings : List (String × Ty)
  targets : List (Ref × Ty)
  /-- The identity that the next reference or declaration gets. -/
  fresh : Nat
  bindings_below : ∀ b ∈ bindings, b.2.ceiling ≤ fresh
  targets_below : ∀ p ∈ targets, p.1.id < fresh ∧ p.2.ceiling ≤ fresh

namespace Scope

def builtins : List (String × Ty) :=
  Scalar.all.map (fun k => (k.name, Ty.scalar k)) ++ [("string", .string), ("handle", .handle)]

def initial : Scope where
  bindings := builtins
  targets := []
  fresh := 0
  bindings_below := by
    simp [builtins, Scalar.all, Ty.scalar, Ty.string, Ty.handle, Ty.ceiling, Ty.core]
  targets_below := by simp

def raise (s : Scope) (n : Nat) : Scope :=
  { s with
    fresh := max s.fresh n
    bindings_below := fun b hb => Nat.le_trans (s.bindings_below b hb) (Nat.le_max_left _ _)
    targets_below := fun p hp =>
      ⟨Nat.lt_of_lt_of_le (s.targets_below p hp).1 (Nat.le_max_left _ _),
        Nat.le_trans (s.targets_below p hp).2 (Nat.le_max_left _ _)⟩ }

def bind (s : Scope) (name : String) (t : Ty) : Scope :=
  { s.raise t.ceiling with
    bindings := (name, t) :: s.bindings
    bindings_below := by
      intro b hb
      rcases List.mem_cons.1 hb with rfl | hb
      · exact Nat.le_max_right _ _
      · exact (s.raise t.ceiling).bindings_below b hb }

def lookup? (s : Scope) (name : String) : Option Ty := s.bindings.lookup name

def contains (s : Scope) (name : String) : Bool := (s.lookup? name).isSome

def names (s : Scope) : List String :=
  (s.bindings.map Prod.fst).eraseDups.mergeSort fun a b => a ≤ b

def target? (s : Scope) (r : Ref) : Option Ty := s.targets.lookup r

def isResolved (s : Scope) (r : Ref) : Bool := (s.target? r).isSome

@[simp] theorem lookup?_bind (s : Scope) (name n : String) (t : Ty) :
    (s.bind name t).lookup? n = if n = name then some t else s.lookup? n := by
  by_cases h : n = name <;> simp [bind, lookup?, List.lookup_cons, h, beq_eq_false_iff_ne.2]

@[simp] theorem target?_bind (s : Scope) (name : String) (t : Ty) (r : Ref) :
    (s.bind name t).target? r = s.target? r := rfl

theorem mem_of_lookup_eq_some {α β : Type} [BEq α] [LawfulBEq α] {entries : List (α × β)} {a : α}
    {b : β} (h : entries.lookup a = some b) : (a, b) ∈ entries := by
  obtain ⟨before, after, heq, -⟩ := List.lookup_eq_some_iff.1 h
  rw [heq]
  exact List.mem_append_right before List.mem_cons_self

theorem lt_of_target? {s : Scope} {r : Ref} {t : Ty} (h : s.target? r = some t) :
    r.id < s.fresh ∧ t.ceiling ≤ s.fresh :=
  s.targets_below (r, t) (mem_of_lookup_eq_some h)

/-- Takes an identity that nothing in the scope has. -/
def mint (s : Scope) : Nat × Scope := (s.fresh, s.raise (s.fresh + 1))

/-- A new reference to a name, bound or not. -/
def refer (s : Scope) (name : String) (location : Location) : Ref × Scope :=
  let (id, s) := s.mint
  (⟨id, name, location⟩, s)

theorem target?_refer (s : Scope) (name : String) (location : Location) :
    s.target? (s.refer name location).1 = none := by
  cases h : s.target? (s.refer name location).1 with
  | none => rfl
  | some t => exact absurd (lt_of_target? h).1 (Nat.lt_irrefl _)

/-- The type of an expression, with a new reference for the name inside. -/
def instantiate (s : Scope) (e : TypeExpr) (location : Location) : Ty × Scope :=
  let (r, s) := s.refer e.coreName location
  (e.withRef r, s)

def setTarget (s : Scope) (r : Ref) (t : Ty) : Scope :=
  let raised := (s.raise (r.id + 1)).raise t.ceiling
  { raised with
    targets := (r, t) :: s.targets
    targets_below := by
      intro p hp
      rcases List.mem_cons.1 hp with rfl | hp
      · exact ⟨Nat.lt_of_lt_of_le (Nat.le_max_right _ _) (Nat.le_max_left _ _),
          Nat.le_max_right _ _⟩
      · exact raised.targets_below p hp }

/-- Resolves a reference by the binding of its name, unless it is resolved already. -/
def resolve (s : Scope) (r : Ref) : Option Ty × Scope :=
  match s.target? r with
  | some t => (some t, s)
  | none =>
    match s.lookup? r.name with
    | some t => (some t, s.setTarget r t)
    | none => (none, s)

@[simp] theorem target?_setTarget (s : Scope) (r r' : Ref) (t : Ty) :
    (s.setTarget r t).target? r' = if r' = r then some t else s.target? r' := by
  by_cases h : r' = r <;> simp [setTarget, target?, List.lookup_cons, h, beq_eq_false_iff_ne.2]

@[simp] theorem lookup?_setTarget (s : Scope) (r : Ref) (t : Ty) (name : String) :
    (s.setTarget r t).lookup? name = s.lookup? name := rfl

theorem target?_resolve_of_some {s : Scope} {r : Ref} {t : Ty} (r' : Ref)
    (h : s.target? r = some t) : (s.resolve r').2.target? r = some t := by
  unfold resolve
  split
  · exact h
  · next hr' =>
    split
    · have hne : r ≠ r' := fun heq => by rw [← heq, h] at hr'; cases hr'
      rw [target?_setTarget, if_neg hne, h]
    · exact h

/-- Follows references to a leaf, at most `hops` of them. -/
def settle : Nat → Scope → Ref → Verdict × Scope
  | 0, s, r => (.error r.unresolved, s)
  | hops + 1, s, r =>
    match s.resolve r with
    | (none, s) => (.error r.unresolved, s)
    | (some t, s) =>
      match t.core with
      | .leaf l => (l.evaluate, s)
      | .ref next => settle hops s next

theorem target?_settle_of_some {r : Ref} {t : Ty} (hops : Nat) (s : Scope) (r' : Ref)
    (h : s.target? r = some t) : (settle hops s r').2.target? r = some t := by
  induction hops generalizing s r' with
  | zero => exact h
  | succ hops ih =>
    have hs := target?_resolve_of_some r' h
    rw [settle]
    split
    · next heq => rw [heq] at hs; exact hs
    · next heq =>
      rw [heq] at hs
      split
      · exact hs
      · exact ih _ _ hs

/-- No way to a leaf meets more references than this, since after the first each is the core of a
binding or of a target. -/
def hops (s : Scope) : Nat := s.bindings.length + s.targets.length + 1

/-- Resolves what stands between a type and its leaf. References stay resolved even if a later one
cannot be. -/
def evaluate (s : Scope) (t : Ty) : Verdict × Scope :=
  match t.core with
  | .leaf l => (l.evaluate, s)
  | .ref r => settle s.hops s r

/-- A resolved reference keeps its target. -/
theorem target?_evaluate_of_some {s : Scope} {r : Ref} {t : Ty} (t' : Ty)
    (h : s.target? r = some t) : (s.evaluate t').2.target? r = some t := by
  unfold evaluate
  split
  · exact h
  · exact target?_settle_of_some _ _ _ h

end Scope
end Idl
