import Idl.Proofs.Enrolment
import Mathlib.Data.Nat.Bitwise

/-!
# Declared and reserved serials stay apart

Declared methods are numbered in order, by every serial from the first to the last and no other, and
a method too many gets none. Packing bytes puts the first in the highest place, so words compare as
their bytes do, and a word with a mark lies above all serials of declared methods. Nothing wraps on
the way: what does not fit is refused.
-/

namespace Idl.Serial

variable {i j : UInt64} {m n : UInt32} {a b c d a' b' c' d' : UInt8}

/-- The number in half a word, unless that would lose some of it. -/
def narrow? (i : UInt64) : Option UInt32 :=
  if i.toUInt32.toUInt64 = i then some i.toUInt32 else none

/-- The sum, unless it has wrapped. -/
def add? (m n : UInt32) : Option UInt32 := if m ≤ m + n then some (m + n) else none

/-- The serial of the method with the index, computed in machine words. -/
def ofIndexInWords? (i : UInt64) : Option UInt32 := do
  let index ← narrow? i
  let serial ← add? index first
  if serial ≤ last then some serial else none

theorem narrow?_eq_some_iff : narrow? i = some n ↔ n.toNat = i.toNat := by
  unfold narrow?
  rw [Option.ite_none_right_eq_some, Option.some_inj, ← UInt64.toNat_inj, ← UInt32.toNat_inj,
    UInt32.toNat_toUInt64]
  constructor
  · rintro ⟨hfits, hn⟩
    exact hn.symm.trans hfits
  · intro hn
    have hlt := n.toNat_lt
    rw [UInt64.toNat_toUInt32]
    omega

theorem add?_eq_some_iff {k : UInt32} : add? m n = some k ↔ k.toNat = m.toNat + n.toNat := by
  have hm := m.toNat_lt
  have hn := n.toNat_lt
  have hk := k.toNat_lt
  unfold add?
  rw [Option.ite_none_right_eq_some, Option.some_inj, ← UInt32.toNat_inj, UInt32.le_iff_toNat_le,
    UInt32.toNat_add]
  omega

/-- A serial is the place of its method, counted from one. -/
theorem ofIndex?_eq_some_iff :
    ofIndex? i = some n ↔ n.toNat = i.toNat + first.toNat ∧ n ≤ last := by
  have hlast := last.toNat_lt
  have hn := n.toNat_lt
  change (if i.toNat + first.toNat ≤ last.toNat then _ else _) = _ ↔ _
  rw [Option.ite_none_right_eq_some, Option.some_inj, ← UInt32.toNat_inj, UInt32.le_iff_toNat_le,
    UInt32.toNat_ofNat']
  omega

theorem ofIndexInWords?_eq_some_iff :
    ofIndexInWords? i = some n ↔ n.toNat = i.toNat + first.toNat ∧ n ≤ last := by
  unfold ofIndexInWords?
  simp only [Option.bind_eq_bind, Option.bind_eq_some_iff, Option.ite_none_right_eq_some,
    Option.some_inj, narrow?_eq_some_iff, add?_eq_some_iff]
  constructor
  · rintro ⟨index, hindex, serial, hserial, hle, rfl⟩
    exact ⟨hindex ▸ hserial, hle⟩
  · rintro ⟨hn, hle⟩
    have hlt := n.toNat_lt
    have hindex : (UInt32.ofNat i.toNat).toNat = i.toNat := by
      apply UInt32.toNat_ofNat_of_lt'
      rw [UInt32.size]
      omega
    exact ⟨_, hindex, n, hindex.symm ▸ hn, hle, rfl⟩

theorem ofIndex?_eq_none_iff : ofIndex? i = none ↔ last.toNat ≤ i.toNat := by
  have hfirst : first.toNat = 1 := rfl
  change (if i.toNat + first.toNat ≤ last.toNat then _ else _) = _ ↔ _
  rw [ite_eq_right_iff]
  constructor
  · intro h
    by_contra hlt
    cases h (by omega)
  · intro h hle
    omega

/-- Where the digits do not overlap, they are put together by addition. -/
theorem shiftLeft_or_shiftLeft {x y : ℕ} (hy : y < 256) (k : ℕ) :
    x <<< (k + 8) ||| y <<< k = (x * 256 + y) <<< k := by
  rw [Nat.add_comm k 8, Nat.shiftLeft_add, ← Nat.shiftLeft_or_distrib,
    ← Nat.shiftLeft_add_eq_or_of_lt (i := 8) hy, Nat.shiftLeft_eq x 8]

/-- A byte that is moved up by some places stays in the word. -/
theorem toNat_shiftLeft (a : UInt8) {k : UInt32} (hk : k.toNat ≤ 24) :
    (a.toUInt32 <<< k).toNat = a.toNat <<< k.toNat := by
  have hlt : a.toNat <<< k.toNat < 2 ^ 32 := by
    calc a.toNat <<< k.toNat
        = a.toNat * 2 ^ k.toNat := Nat.shiftLeft_eq _ _
      _ ≤ a.toNat * 2 ^ 24 := Nat.mul_le_mul_left _ (Nat.pow_le_pow_right (by omega) hk)
      _ < 2 ^ 32 := by
        have ha := a.toNat_lt
        omega
  have hplaces : k.toNat % 32 = k.toNat := Nat.mod_eq_of_lt (by omega)
  rw [UInt32.toNat_shiftLeft, UInt8.toNat_toUInt32, hplaces, Nat.mod_eq_of_lt hlt]

theorem toNat_pack (a b c d : UInt8) :
    (pack a b c d).toNat = ((a.toNat * 256 + b.toNat) * 256 + c.toNat) * 256 + d.toNat := by
  rw [pack, UInt32.toNat_or, UInt32.toNat_or, UInt32.toNat_or,
    toNat_shiftLeft a (k := 24) (by decide), toNat_shiftLeft b (k := 16) (by decide),
    toNat_shiftLeft c (k := 8) (by decide), UInt8.toNat_toUInt32]
  change a.toNat <<< (16 + 8) ||| b.toNat <<< (8 + 8) ||| c.toNat <<< (0 + 8) ||| d.toNat <<< 0 = _
  rw [shiftLeft_or_shiftLeft b.toNat_lt, shiftLeft_or_shiftLeft c.toNat_lt,
    shiftLeft_or_shiftLeft d.toNat_lt]
  rfl

/-- The bytes of a word are its digits to the base 256. -/
theorem digits_pack (a b c d : UInt8) :
    let word := (pack a b c d).toNat
    word / 256 ^ 3 = a.toNat ∧ word / 256 ^ 2 % 256 = b.toNat ∧ word / 256 % 256 = c.toNat ∧
      word % 256 = d.toNat := by
  have hb := b.toNat_lt
  have hc := c.toNat_lt
  have hd := d.toNat_lt
  intro word
  have hword : word = ((a.toNat * 256 + b.toNat) * 256 + c.toNat) * 256 + d.toNat :=
    toNat_pack a b c d
  omega

theorem pack_inj : pack a b c d = pack a' b' c' d' ↔ [a, b, c, d] = [a', b', c', d'] := by
  constructor
  · intro h
    obtain ⟨ha, hb, hc, hd⟩ := digits_pack a b c d
    obtain ⟨ha', hb', hc', hd'⟩ := digits_pack a' b' c' d'
    rw [h] at ha hb hc hd
    rw [UInt8.toNat_inj.1 (ha.symm.trans ha'), UInt8.toNat_inj.1 (hb.symm.trans hb'),
      UInt8.toNat_inj.1 (hc.symm.trans hc'), UInt8.toNat_inj.1 (hd.symm.trans hd')]
  · intro h
    cases h
    rfl

/-- Words are ordered as their bytes are, the first of which counts most. -/
theorem pack_lt_pack_iff :
    pack a b c d < pack a' b' c' d' ↔ [a, b, c, d] < [a', b', c', d'] := by
  have hb := b.toNat_lt
  have hc := c.toNat_lt
  have hd := d.toNat_lt
  have hb' := b'.toNat_lt
  have hc' := c'.toNat_lt
  have hd' := d'.toNat_lt
  simp only [List.cons_lt_cons_iff, List.lt_irrefl, and_false, or_false, UInt8.lt_iff_toNat_lt,
    ← UInt8.toNat_inj, UInt32.lt_iff_toNat_lt, toNat_pack]
  omega

theorem last_lt_pack (ha : a ≠ 0) (b c d : UInt8) : last < pack a b c d := by
  have hlast : last.toNat = 0x00ffffff := rfl
  have hmark : 0 < a.toNat := UInt8.pos_iff_ne_zero.2 ha
  rw [UInt32.lt_iff_toNat_lt, toNat_pack]
  omega

/-- Numbering gives every serial of the range to one index, in order, and gives none to an index
beyond it. A packed word holds its bytes and is ordered by them. With a mark in its first byte it
lies above all serials of declared methods. In machine words nothing wraps: a narrowed number and a
sum are exact whenever there is one. -/
theorem ordinary_below_reserved (i j : UInt64) (m n k : UInt32) (a b c d a' b' c' d' : UInt8) :
    let word := pack a b c d
    let word' := pack a' b' c' d'
    (ofIndex? i = none ↔ last.toNat ≤ i.toNat) ∧
      (ofIndex? i = some m → first ≤ m ∧ m ≤ last ∧ m.toNat = i.toNat + first.toNat) ∧
      (ofIndex? i = some m → ofIndex? j = some n → (m < n ↔ i < j)) ∧
      (first ≤ n ∧ n ≤ last → ∃ index, ofIndex? index = some n) ∧
      (word = word' ↔ [a, b, c, d] = [a', b', c', d']) ∧
      (word < word' ↔ [a, b, c, d] < [a', b', c', d']) ∧
      (word.toNat / 256 ^ 3 = a.toNat ∧ word.toNat / 256 ^ 2 % 256 = b.toNat ∧
        word.toNat / 256 % 256 = c.toNat ∧ word.toNat % 256 = d.toNat) ∧
      (a ≠ 0 → ofIndex? i = some m → m < word) ∧
      ofIndex? i = ofIndexInWords? i ∧
      (narrow? i = some m ↔ m.toNat = i.toNat) ∧
      (add? m n = some k ↔ k.toNat = m.toNat + n.toNat) ∧
      word.toNat = ((a.toNat * 256 + b.toNat) * 256 + c.toNat) * 256 + d.toNat := by
  intro word word'
  have hfirst : first.toNat = 1 := rfl
  refine ⟨ofIndex?_eq_none_iff, fun hm => ?_, fun hm hn => ?_, fun hn => ?_, pack_inj,
    pack_lt_pack_iff, digits_pack a b c d, fun ha hm => ?_, ?_, narrow?_eq_some_iff,
    add?_eq_some_iff, toNat_pack a b c d⟩
  · obtain ⟨hm, hle⟩ := ofIndex?_eq_some_iff.1 hm
    refine ⟨?_, hle, hm⟩
    rw [UInt32.le_iff_toNat_le]
    omega
  · obtain ⟨hm, -⟩ := ofIndex?_eq_some_iff.1 hm
    obtain ⟨hn, -⟩ := ofIndex?_eq_some_iff.1 hn
    rw [UInt32.lt_iff_toNat_lt, UInt64.lt_iff_toNat_lt]
    omega
  · have hle := UInt32.le_iff_toNat_le.1 hn.1
    refine ⟨n.toUInt64 - 1, ofIndex?_eq_some_iff.2 ⟨?_, hn.2⟩⟩
    rw [UInt64.toNat_sub_of_le, UInt32.toNat_toUInt64]
    · change _ = _ - 1 + _
      omega
    · rw [UInt64.le_iff_toNat_le, UInt32.toNat_toUInt64]
      exact hle
  · exact UInt32.lt_of_le_of_lt (le_last_of_ofIndex? hm) (last_lt_pack ha b c d)
  · ext n
    rw [ofIndex?_eq_some_iff, ofIndexInWords?_eq_some_iff]

/-- The last serial of the range, the first index without one, and the lowest word with a mark. -/
theorem ordinary_at_the_end :
    ofIndex? 0x00fffffe = some last ∧ ofIndex? 0x00ffffff = none ∧ first ≤ last ∧
      last < pack 1 0 0 0 := by
  have hend : ofIndex? 0x00fffffe = some last := by decide
  obtain ⟨-, hrange, -, -, -, -, -, habove, -⟩ :=
    ordinary_below_reserved 0x00fffffe 0 last 0 0 1 0 0 0 0 0 0 0
  obtain ⟨hnone, -⟩ := ordinary_below_reserved 0x00ffffff 0 0 0 0 0 0 0 0 0 0 0 0
  exact ⟨hend, hnone.2 (by decide), (hrange hend).1, habove (by decide) hend⟩

end Idl.Serial
