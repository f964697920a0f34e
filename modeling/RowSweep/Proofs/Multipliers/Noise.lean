import RowSweep.Proofs.Binary64.Cancellation
import RowSweep.Proofs.Binary64.NonFinite
import RowSweep.Proofs.Multipliers.Guard

/-!
This module contains what rounding leaves in a combined cell. Scaled multipliers drop every sum that is small beside
its terms. Whole ones keep it, and it is exact only as far as the terms themselves are.
-/

namespace RowSweep

open Binary64

attribute [local irreducible] unitsPerOne rangeEnd

namespace Binary64

theorem isUnsigned_of_lt_one {zeroSnap : Binary64} (hpositive : zeroSnap.isPositive = true)
    (hlt : zeroSnap.lt .one = true) : IsUnsigned zeroSnap ∧ zeroSnap.units < unitsPerOne := by
  have hfinite : zeroSnap.isFinite = true := by
    obtain ⟨s, u, hu, hone⟩ := exists_of_isFinite isFinite_one
    rw [hone] at hlt
    cases zeroSnap with
    | nan => cases hlt
    | infinite s =>
      cases s with
      | false => cases hlt
      | true => cases hpositive
    | finite s u hu => rfl
  rw [isPositive_iff hfinite] at hpositive
  rw [lt_iff hfinite isFinite_one, units_one] at hlt
  exact ⟨isUnsigned_of_units_pos hpositive, hlt⟩

end Binary64

namespace Multipliers

def exactCell (k : Multipliers) (upper lower : Binary64) : ℚ :=
  upper.toRat * k.target.toRat + lower.toRat * (k.sign.apply k.copy).toRat

def termError (k : Multipliers) (upper lower : Binary64) : ℚ :=
  (upper * k.target).toRat - upper.toRat * k.target.toRat +
    ((lower * k.sign.apply k.copy).toRat - lower.toRat * (k.sign.apply k.copy).toRat)

def noiseLevel (k : Multipliers) (zeroSnap upper lower : Binary64) : Binary64 :=
  zeroSnap * (upper * k.target).abs.max (lower * k.sign.apply k.copy).abs

def IsClean (k : Multipliers) (zeroSnap upper lower cell : Binary64) : Prop :=
  cell.toRat = k.exactCell upper lower ∨ cell.isZero = true ∨ (k.noiseLevel zeroSnap upper lower).lt cell.abs = true

instance (k : Multipliers) (zeroSnap upper lower cell : Binary64) : Decidable (k.IsClean zeroSnap upper lower cell) :=
  inferInstanceAs (Decidable (_ ∨ _ ∨ _))

def IsSmall (k : Multipliers) (zeroSnap upper lower : Binary64) : Prop :=
  (upper * k.target + lower * k.sign.apply k.copy).isZero = false ∧
    (upper * k.target + lower * k.sign.apply k.copy).abs.le (k.noiseLevel zeroSnap upper lower) = true

variable {k : Multipliers} {zeroSnap upper lower : Binary64}

section level

variable (hpositive : zeroSnap.isPositive = true) (hlt : zeroSnap.lt .one = true)
variable (hsum : (upper * k.target + lower * k.sign.apply k.copy).isFinite = true)

include hpositive hlt hsum

theorem noiseLevel_spec :
    IsUnsigned (k.noiseLevel zeroSnap upper lower) ∧
      (k.noiseLevel zeroSnap upper lower).magnitude =
        roundUnits (Max.max (upper * k.target).magnitude (lower * k.sign.apply k.copy).magnitude * zeroSnap.magnitude)
          unitsPerOne := by
  obtain ⟨hunsigned, hunits⟩ := isUnsigned_of_lt_one hpositive hlt
  rw [hunsigned.units_eq] at hunits
  obtain ⟨hu, hw⟩ := isFinite_of_isFinite_add hsum
  have hterms := isUnsigned_max (isUnsigned_abs hu) (isUnsigned_abs hw)
  unfold noiseLevel
  rw [Binary64.mul_comm]
  have hlevel := mul_unsigned_of_le_one hterms hunsigned (by omega)
  rwa [magnitude_max (isUnsigned_abs hu) (isUnsigned_abs hw), magnitude_abs, magnitude_abs] at hlevel

theorem noiseLevel_lt_iff :
    (k.noiseLevel zeroSnap upper lower).lt (upper * k.target + lower * k.sign.apply k.copy).abs = true ↔
      ¬ (upper * k.target + lower * k.sign.apply k.copy).abs.le (k.noiseLevel zeroSnap upper lower) = true := by
  have hlevel := (noiseLevel_spec hpositive hlt hsum).left.isFinite
  have hfinite : (upper * k.target + lower * k.sign.apply k.copy).abs.isFinite = true := by rwa [isFinite_abs]
  rw [lt_iff hlevel hfinite, le_iff hfinite hlevel]
  omega

theorem isClean_combineCell_iff :
    k.IsClean zeroSnap upper lower (k.combineCell (if k.integral then .zero else zeroSnap) upper lower) ↔
      ¬ (k.integral = true ∧ k.IsSmall zeroSnap upper lower ∧
        (upper * k.target + lower * k.sign.apply k.copy).toRat ≠ k.exactCell upper lower) := by
  have hlevel := noiseLevel_lt_iff hpositive hlt hsum
  cases k.integral with
  | true =>
    simp only [if_true, combineCell_zero, true_and]
    unfold IsClean IsSmall
    rw [hlevel, ← Bool.not_eq_true]
    tauto
  | false =>
    simp only [Bool.false_eq_true, if_false, false_and, not_false_eq_true, iff_true]
    unfold combineCell
    dsimp only
    rw [hpositive, Bool.true_and]
    split
    next => exact Or.inr (Or.inl isZero_zero)
    next hsnap => exact Or.inr (Or.inr (hlevel.mpr hsnap))

theorem toRat_eq_exactCell_iff (hhalf : zeroSnap.lt (.twoPow (-1)) = true) (hsmall : k.IsSmall zeroSnap upper lower) :
    (upper * k.target + lower * k.sign.apply k.copy).toRat = k.exactCell upper lower ↔
      k.termError upper lower = 0 := by
  -- Below one half a small sum is not rounded, so all that is wrong with it comes from its terms.
  obtain ⟨hu, hw⟩ := isFinite_of_isFinite_add hsum
  have hunsigned := (isUnsigned_of_lt_one hpositive hlt).left
  have hunits := units_add_of_abs_le hu hw hsum hunsigned hhalf hsmall.right
  have htoRat : (upper * k.target + lower * k.sign.apply k.copy).toRat =
      (upper * k.target).toRat + (lower * k.sign.apply k.copy).toRat := by
    unfold toRat
    rw [hunits, Int.cast_add, add_div]
  rw [htoRat, ← sub_eq_zero]
  unfold termError exactCell
  rw [add_sub_add_comm]

end level

theorem isClean_of_integers {i j : Int} (hpositive : zeroSnap.isPositive = true) (hlt : zeroSnap.lt .one = true)
    (hu : (upper * k.target).integer? = some i) (hw : (lower * k.sign.apply k.copy).integer? = some j)
    (hi : i.natAbs ≤ 2 ^ 53) (hj : j.natAbs ≤ 2 ^ 53) (hij : (i + j).natAbs ≤ 2 ^ 53 + 1)
    (hexact : k.exactCell upper lower = (i + j : Int)) :
    k.IsClean zeroSnap upper lower (upper * k.target + lower * k.sign.apply k.copy) := by
  -- The integers next to the exact range are far above the noise.
  by_cases hodd : (i + j).natAbs = 2 ^ 53 + 1
  . have hsum := integer?_add_of_succ hu hw hodd
    have hfinite := isFinite_of_integer? hsum
    obtain ⟨hlevel, hmag⟩ := noiseLevel_spec hpositive hlt hfinite
    obtain ⟨hunsigned, hunits⟩ := isUnsigned_of_lt_one hpositive hlt
    rw [hunsigned.units_eq] at hunits
    obtain ⟨e, he⟩ : ∃ e, e = 1021 := ⟨_, rfl⟩
    have hone : unitsPerOne = 2 ^ 53 * 2 ^ e := by
      rw [← Nat.pow_add]
      exact unitsPerOne_eq (by omega)
    have hsnap := le_of_lt_two_pow (k := e) (spareBits_dvd_magnitude zeroSnap) (by omega)
    have hle : (k.noiseLevel zeroSnap upper lower).magnitude ≤ (2 ^ 53 - 1) * unitsPerOne := by
      rw [hmag]
      apply roundUnits_le unitsPerOne_pos (fits_mul_unitsPerOne (Nat.sub_le _ _)).dvd
      rw [magnitude_of_integer? hu, magnitude_of_integer? hw]
      calc
        Max.max (i.natAbs * unitsPerOne) (j.natAbs * unitsPerOne) * zeroSnap.magnitude
          ≤ 2 ^ 53 * unitsPerOne * ((2 ^ 53 - 1) * 2 ^ e) := by
            apply Nat.mul_le_mul _ hsnap
            exact Nat.max_le.mpr ⟨Nat.mul_le_mul_right _ hi, Nat.mul_le_mul_right _ hj⟩
        _ = (2 ^ 53 - 1) * unitsPerOne * (2 ^ 53 * 2 ^ e) := by ac_rfl
        _ = (2 ^ 53 - 1) * unitsPerOne * unitsPerOne := by rw [← hone]
    have hsign : ((i + j).sign * 2 ^ 53).natAbs = 2 ^ 53 := by
      rw [Int.natAbs_mul, Int.natAbs_sign_of_ne_zero (by omega)]
      rfl
    refine Or.inr (Or.inr ?_)
    rw [lt_iff hlevel.isFinite (by rwa [isFinite_abs]), hlevel.units_eq, units_abs, magnitude_of_integer? hsum, hsign]
    have hpos := unitsPerOne_pos
    omega
  . apply Or.inl
    rw [toRat_of_integer? (integer?_add hu hw (by omega)), hexact]

theorem IsGuarded.isClean {upper lower : Row n} {t w : Nat} (h : k.IsGuarded t w upper lower)
    (hpositive : zeroSnap.isPositive = true) (hlt : zeroSnap.lt .one = true) (hupper : upper.IsInteger)
    (hlower : lower.IsInteger) (j : Fin n) :
    k.IsClean zeroSnap upper[j] lower[j] (upper[j] * k.target + lower[j] * k.sign.apply k.copy) := by
  have hi := Nat.mul_le_mul_left t (upper.natAbs_le_largest j)
  have hj := Nat.mul_le_mul_left w (lower.natAbs_le_largest j)
  have hut := natAbs_mul_natCast upper[j].toInt t
  have hwc := natAbs_mul_toInt lower[j].toInt k.sign w
  have hu_le := h.upper_le
  have hw_le := h.lower_le
  have hle := h.add_le
  have hcopy := Sign.integer?_apply h.copy k.sign
  have hu := integer?_mul (hupper.integer? j) h.target (by omega)
  have hw := integer?_mul (hlower.integer? j) hcopy (by omega)
  apply isClean_of_integers hpositive hlt hu hw (by omega) (by omega) (by omega)
  unfold exactCell
  rw [toRat_of_integer? (hupper.integer? j), toRat_of_integer? (hlower.integer? j), toRat_of_integer? h.target,
    toRat_of_integer? hcopy]
  push_cast
  rfl

end Multipliers

end RowSweep
