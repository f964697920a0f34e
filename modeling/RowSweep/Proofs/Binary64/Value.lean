import RowSweep.Proofs.Binary64.Whole

/-!
This module contains the rational number that a finite value stands for.
-/

namespace RowSweep.Binary64

attribute [local irreducible] unitsPerOne

def toRat (x : Binary64) : ℚ :=
  x.units / unitsPerOne

theorem unitsPerOne_cast_ne_zero : (unitsPerOne : ℚ) ≠ 0 := by
  have hpos := unitsPerOne_pos
  rw [Nat.cast_ne_zero]
  omega

theorem unitsPerOne_cast_pos : (0 : ℚ) < unitsPerOne :=
  Nat.cast_pos.mpr unitsPerOne_pos

theorem toRat_of_integer? (h : integer? x = some i) : x.toRat = i := by
  unfold toRat
  rw [units_of_integer? h, Int.cast_mul, Int.cast_natCast]
  exact mul_div_cancel_right₀ _ unitsPerOne_cast_ne_zero

theorem toRat_eq_zero (h : isFinite x = true) : x.toRat = 0 ↔ x.isZero = true := by
  unfold toRat
  rw [div_eq_zero_iff, or_iff_left unitsPerOne_cast_ne_zero, Int.cast_eq_zero, isZero_iff]
  simp [h]

theorem abs_toRat (x : Binary64) : |x.toRat| = x.magnitude / unitsPerOne := by
  unfold toRat magnitude
  rw [abs_div, Nat.abs_cast, Nat.cast_natAbs, Int.cast_abs]

theorem abs_toRat_le_iff {x : Binary64} {B : ℚ} : |x.toRat| ≤ B ↔ (x.magnitude : ℚ) ≤ B * unitsPerOne := by
  rw [abs_toRat, div_le_iff₀ unitsPerOne_cast_pos]

end RowSweep.Binary64
