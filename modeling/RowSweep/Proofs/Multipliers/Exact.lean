import RowSweep.Proofs.Multipliers.LowestTerms

/-!
This module contains the combination of integer rows with whole multipliers. As long as the bound on the combined
row holds for the integers themselves, none of its operations rounds.
-/

namespace RowSweep

open Binary64

attribute [local irreducible] unitsPerOne rangeEnd

namespace Binary64

def toInt (x : Binary64) : Int :=
  x.integer?.getD 0

theorem toInt_of_integer? (h : integer? x = some i) : x.toInt = i := by
  unfold toInt
  rw [h]
  rfl

theorem integer?_toInt (h : x.integer?.isSome = true) : integer? x = some x.toInt := by
  obtain ⟨i, hi⟩ := Option.isSome_iff_exists.mp h
  rw [toInt_of_integer? hi, hi]

end Binary64

namespace Row

def IsInteger (row : Row n) : Prop :=
  ∀ j : Fin n, row[j].integer?.isSome = true

instance (row : Row n) : Decidable row.IsInteger :=
  inferInstanceAs (Decidable (∀ j : Fin n, row[j].integer?.isSome = true))

def largest (row : Row n) : Nat :=
  Finset.univ.sup fun j : Fin n => row[j].toInt.natAbs

variable {row : Row n}

theorem IsInteger.integer? (h : row.IsInteger) (j : Fin n) : row[j].integer? = some row[j].toInt :=
  integer?_toInt (h j)

theorem IsInteger.isFinite (h : row.IsInteger) (j : Fin n) : row[j].isFinite = true :=
  isFinite_of_integer? (h.integer? j)

theorem natAbs_le_largest (row : Row n) (j : Fin n) : row[j].toInt.natAbs ≤ row.largest :=
  Finset.le_sup (f := fun j : Fin n => row[j].toInt.natAbs) (Finset.mem_univ j)

theorem IsInteger.integer?_peak (h : row.IsInteger) : row.peak.integer? = some (row.largest : Int) := by
  have hpos := unitsPerOne_pos
  have hcell : ∀ j : Fin n, row[j].magnitude = row[j].toInt.natAbs * unitsPerOne :=
    fun j => magnitude_of_integer? (h.integer? j)
  have hle : row.peak.magnitude ≤ row.largest * unitsPerOne := by
    cases exists_magnitude_eq_peak h.isFinite with
    | inl hzero =>
      rw [hzero]
      exact Nat.zero_le _
    | inr hex =>
      obtain ⟨j, heq⟩ := hex
      rw [heq, hcell]
      exact Nat.mul_le_mul_right _ (row.natAbs_le_largest j)
  have hge : row.largest ≤ row.peak.magnitude / unitsPerOne := by
    apply Finset.sup_le
    intro j _
    rw [Nat.le_div_iff_mul_le hpos, ← hcell]
    exact magnitude_le_peak h.isFinite j
  rw [Nat.le_div_iff_mul_le hpos] at hge
  rw [integer?_eq_some, units_peak h.isFinite, Nat.le_antisymm hle hge]
  exact ⟨isFinite_peak h.isFinite, Int.natCast_mul _ _⟩

end Row

namespace Multipliers

variable {k : Multipliers} {upper lower : Row n} {t c : Nat}

theorem staysExact_of_le (htarget : k.target.integer? = some (t : Int))
    (hcopy : k.copy.integer? = some (c : Int)) (hupper : upper.IsInteger) (hlower : lower.IsInteger)
    (h : t * upper.largest + c * lower.largest ≤ 2 ^ 53) : k.staysExact upper lower = true := by
  have hu := integer?_mul htarget hupper.integer?_peak (by omega)
  have hw := integer?_mul hcopy hlower.integer?_peak (by omega)
  have hsum := integer?_add hu hw (by omega)
  unfold staysExact
  rw [le_exactLimit_iff (isFinite_of_integer? hsum), units_of_integer? hsum]
  apply Int.mul_le_mul_of_nonneg_right
  . omega
  . omega

theorem combineCell_zero (k : Multipliers) (x y : Binary64) :
    k.combineCell .zero x y = x * k.target + y * k.sign.apply k.copy := by
  unfold combineCell
  simp [isPositive, zero]

theorem natAbs_mul_natCast (i : Int) (t : Nat) : (i * t).natAbs = t * i.natAbs := by
  rw [Int.natAbs_mul, Int.natAbs_natCast, Nat.mul_comm]

theorem natAbs_mul_toInt (j : Int) (s : Sign) (c : Nat) : (j * (s.toInt * c)).natAbs = c * j.natAbs := by
  rw [Int.natAbs_mul, Int.natAbs_mul, Sign.natAbs_toInt, Int.natAbs_natCast, Nat.one_mul, Nat.mul_comm]

theorem integer?_combineCell (htarget : k.target.integer? = some (t : Int))
    (hcopy : k.copy.integer? = some (c : Int)) (hx : integer? x = some i) (hy : integer? y = some j)
    (h : t * i.natAbs + c * j.natAbs ≤ 2 ^ 53) :
    (k.combineCell .zero x y).integer? = some (i * t + j * (k.sign.toInt * c)) := by
  have hut := natAbs_mul_natCast i t
  have hwc := natAbs_mul_toInt j k.sign c
  have hu := integer?_mul hx htarget (by omega)
  have hw := integer?_mul hy (Sign.integer?_apply hcopy k.sign) (by omega)
  rw [combineCell_zero]
  exact integer?_add hu hw (by omega)

end Multipliers

namespace Row

/--
Whether the combination of two rows that is meant to clear column `c` stays in the exact range when the integers
there are divided by their common divisor first.
-/
def CombinesExactly (upper lower : Row n) (c : Fin n) : Prop :=
  let d := Nat.gcd upper[c].toInt.natAbs lower[c].toInt.natAbs
  lower[c].toInt.natAbs / d * upper.largest + upper[c].toInt.natAbs / d * lower.largest ≤ 2 ^ 53

instance (upper lower : Row n) (c : Fin n) : Decidable (upper.CombinesExactly lower c) :=
  inferInstanceAs (Decidable (_ ≤ _))

/--
An integer row that replaces the upper one of two: a multiple of it is a combination of the two rows in which the
upper one counts.
-/
structure IsCombination (row upper lower : Row n) : Prop where
  integer : row.IsInteger
  combination : ∃ t w d : Int, t ≠ 0 ∧ d ≠ 0 ∧
    ∀ j : Fin n, row[j].toInt * d = upper[j].toInt * t + lower[j].toInt * w

theorem IsInteger.isZero_iff {row : Row n} (h : row.IsInteger) (j : Fin n) :
    row[j].isZero = true ↔ row[j].toInt = 0 :=
  isZero_iff_of_integer? (h.integer? j)

theorem IsCombination.isZero_of_isZero {row upper lower : Row n} (h : row.IsCombination upper lower)
    (hupper : upper.IsInteger) (hlower : lower.IsInteger) {j : Fin n} (hx : upper[j].isZero = true)
    (hy : lower[j].isZero = true) : row[j].isZero = true := by
  obtain ⟨t, w, d, -, hd, hcells⟩ := h.combination
  have hj := hcells j
  rw [(hupper.isZero_iff j).mp hx, (hlower.isZero_iff j).mp hy, Int.zero_mul, Int.zero_mul, Int.add_zero,
    Int.mul_eq_zero] at hj
  rw [h.integer.isZero_iff]
  exact hj.resolve_right hd

theorem isCombination_rescale {row upper lower : Row n} (ht : t ≠ 0)
    (hrow : ∀ j : Fin n, row[j].integer? = some (upper[j].toInt * t + lower[j].toInt * w))
    (hle : ∀ j : Fin n, (upper[j].toInt * t + lower[j].toInt * w).natAbs ≤ 2 ^ 53) :
    IsCombination row.rescale.1 upper lower ∧ row.rescale.2.isFinite = true ∧
      ∀ j : Fin n, row.rescale.1[j].toInt.natAbs ≤ (upper[j].toInt * t + lower[j].toInt * w).natAbs := by
  have hfinite : ∀ j : Fin n, row[j].isFinite = true := fun j => isFinite_of_integer? (hrow j)
  have hpeak : Within (2 ^ 53 * unitsPerOne) row.peak := by
    apply peak_within hfinite
    intro j
    rw [magnitude_of_integer? (hrow j)]
    exact Nat.mul_le_mul_right _ (hle j)
  obtain ⟨xs, hxs⟩ := exists_integers?_eq_some (fun j => ⟨_, hrow j⟩)
  obtain ⟨d, hpos, hd, hdivisor, hcells⟩ := rescale_integers hfinite hpeak.magnitude_le hxs
  have hquotient : ∀ j : Fin n, row.rescale.1[j].toInt * d = upper[j].toInt * t + lower[j].toInt * w := by
    intro j
    obtain ⟨q, -, hj, hq⟩ := hcells j
    rw [hrow j, Option.some.injEq] at hj
    rw [toInt_of_integer? hq, hj]
  refine ⟨⟨?_, t, w, d, ht, by omega, hquotient⟩, ?_, ?_⟩
  . intro j
    obtain ⟨q, -, -, hq⟩ := hcells j
    rw [hq]
    rfl
  . rw [hdivisor]
    exact (ofNat_spec hd).left
  . intro j
    rw [← hquotient, Int.natAbs_mul, Int.natAbs_natCast]
    exact Nat.le_mul_of_pos_right _ hpos

end Row

namespace Multipliers

variable {upper lower : Row n} {c : Fin n} (hupper : upper.IsInteger) (hlower : lower.IsInteger)

include hupper hlower

theorem exists_integral? (hx : upper[c].isZero = false) (hy : lower[c].isZero = false)
    (h : upper.CombinesExactly lower c) :
    ∃ k t w, integral? upper[c] lower[c] = some k ∧ k.target.integer? = some ((t : Nat) : Int) ∧
      k.copy.integer? = some ((w : Nat) : Int) ∧ 0 < t ∧ t ≤ lower.largest ∧ w ≤ upper.largest ∧
        t * upper.largest + w * lower.largest ≤ 2 ^ 53 := by
  have hxne : upper[c].toInt ≠ 0 := by
    intro hzero
    rw [(hupper.isZero_iff c).mpr hzero] at hx
    cases hx
  have hyne : lower[c].toInt ≠ 0 := by
    intro hzero
    rw [(hlower.isZero_iff c).mpr hzero] at hy
    cases hy
  have hxle := upper.natAbs_le_largest c
  have hyle := lower.natAbs_le_largest c
  unfold Row.CombinesExactly at h
  dsimp only at h
  generalize hd : Nat.gcd upper[c].toInt.natAbs lower[c].toInt.natAbs = d at h
  have hdx : d ∣ upper[c].toInt.natAbs := hd ▸ Nat.gcd_dvd_left _ _
  have hdy : d ∣ lower[c].toInt.natAbs := hd ▸ Nat.gcd_dvd_right _ _
  have hdpos : 0 < d := Nat.pos_of_dvd_of_pos hdx (by omega)
  have htpos : 0 < lower[c].toInt.natAbs / d := Nat.div_pos (Nat.le_of_dvd (by omega) hdy) hdpos
  have hwpos : 0 < upper[c].toInt.natAbs / d := Nat.div_pos (Nat.le_of_dvd (by omega) hdx) hdpos
  -- Both multipliers count at least once, so the entries and the multipliers are in the exact range.
  have htle := Nat.le_mul_of_pos_left upper.largest htpos
  have hwle := Nat.le_mul_of_pos_left lower.largest hwpos
  have htdiv := Nat.div_le_self lower[c].toInt.natAbs d
  have hwdiv := Nat.div_le_self upper[c].toInt.natAbs d
  have hxexact : upper[c].exactInteger? = some upper[c].toInt :=
    exactInteger?_eq_some.mpr ⟨hupper.integer? c, by omega⟩
  have hyexact : lower[c].exactInteger? = some lower[c].toInt :=
    exactInteger?_eq_some.mpr ⟨hlower.integer? c, by omega⟩
  refine ⟨_, _, _, integral?_eq_some.mpr ⟨_, _, hxexact, hyexact, rfl⟩, ?_, ?_, htpos, by omega, by omega, h⟩
  . rw [hd]
    exact integer?_ofNat (by omega)
  . rw [hd]
    exact integer?_ofNat (by omega)

section combine

variable {k : Multipliers} (htarget : k.target.integer? = some ((t : Nat) : Int))
variable (hcopy : k.copy.integer? = some ((w : Nat) : Int))
variable (h : t * upper.largest + w * lower.largest ≤ 2 ^ 53)

include htarget hcopy h

theorem integer?_combine (j : Fin n) :
    (k.combine .zero upper lower)[j].integer? =
        some (upper[j].toInt * t + lower[j].toInt * (k.sign.toInt * w)) ∧
      (upper[j].toInt * t + lower[j].toInt * (k.sign.toInt * w)).natAbs ≤ 2 ^ 53 := by
  have hu := Nat.mul_le_mul_left t (upper.natAbs_le_largest j)
  have hw := Nat.mul_le_mul_left w (lower.natAbs_le_largest j)
  have hut := natAbs_mul_natCast upper[j].toInt t
  have hwc := natAbs_mul_toInt lower[j].toInt k.sign w
  rw [getElem_combine]
  refine ⟨integer?_combineCell htarget hcopy (hupper.integer? j) (hlower.integer? j) (by omega), ?_⟩
  omega

theorem isCombination_combine (ht : 0 < t) :
    Row.IsCombination (k.combine .zero upper lower).rescale.1 upper lower ∧
      (k.combine .zero upper lower).rescale.2.isFinite = true ∧
      (k.combine .zero upper lower).rescale.1.largest ≤ t * upper.largest + w * lower.largest := by
  obtain ⟨hcombination, hdivisor, hcells⟩ := Row.isCombination_rescale (t := t) (w := k.sign.toInt * w) (by omega)
    (fun j => (integer?_combine hupper hlower htarget hcopy h j).left)
    (fun j => (integer?_combine hupper hlower htarget hcopy h j).right)
  refine ⟨hcombination, hdivisor, Finset.sup_le fun j _ => Nat.le_trans (hcells j) ?_⟩
  have hut := natAbs_mul_natCast upper[j].toInt t
  have hwc := natAbs_mul_toInt lower[j].toInt k.sign w
  have hu := Nat.mul_le_mul_left t (upper.natAbs_le_largest j)
  have hw := Nat.mul_le_mul_left w (lower.natAbs_le_largest j)
  omega

theorem isZero_rescale_combine {j : Fin n} (hj : (k.combineCell .zero upper[j] lower[j]).isZero = true) :
    (k.combine .zero upper lower).rescale.1[j].isZero = true := by
  have hfinite : ∀ j : Fin n, (k.combine .zero upper lower)[j].isFinite = true :=
    fun j => isFinite_of_integer? (integer?_combine hupper hlower htarget hcopy h j).left
  rw [Row.isZero_rescale_iff hfinite, getElem_combine]
  exact Or.inl hj

end combine

end Multipliers

end RowSweep
