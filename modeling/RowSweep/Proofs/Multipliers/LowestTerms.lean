import RowSweep.Proofs.Multipliers.Bounds
import RowSweep.Proofs.Multipliers.Divisor

/-!
This module contains the whole multipliers of two integers. They are the integers, exchanged and divided by their
greatest common divisor, with the sign that makes the two terms cancel.
-/

namespace RowSweep

open Binary64

attribute [local irreducible] unitsPerOne

theorem Binary64.sign_units {x : Binary64} (hx : x.isFinite = true) (hx0 : x.isZero = false) :
    x.units.sign = if x.isPositive then 1 else -1 := by
  have hne := mt magnitude_eq_zero.mpr (magnitude_ne_zero hx hx0)
  have hiff := isPositive_iff hx
  split
  next hpos => exact Int.sign_eq_one_of_pos (hiff.mp hpos)
  next hneg =>
    rw [hiff] at hneg
    exact Int.sign_eq_neg_one_of_neg (by omega)

theorem Binary64.sign_of_integer? (h : integer? x = some i) : x.units.sign = i.sign := by
  have hpos := unitsPerOne_pos
  rw [units_of_integer? h, Int.sign_mul, Int.sign_natCast_of_ne_zero (by omega), Int.mul_one]

namespace Sign

def toInt : Sign → Int
  | plus => 1
  | minus => -1

theorem natAbs_toInt (s : Sign) : s.toInt.natAbs = 1 := by
  cases s <;> rfl

theorem integer?_apply (h : integer? x = some i) (s : Sign) : integer? (s.apply x) = some (s.toInt * i) := by
  cases s with
  | plus =>
    rw [Sign.toInt, Int.one_mul]
    exact h
  | minus =>
    rw [Sign.toInt, Int.neg_one_mul]
    exact integer?_neg h

theorem toInt_eq_neg_sign {x y : Binary64} (hx : x.isFinite = true) (hy : y.isFinite = true) (hx0 : x.isZero = false)
    (hy0 : y.isZero = false) :
    (if x.isPositive == y.isPositive then Sign.minus else .plus).toInt = -(x.units.sign * y.units.sign) := by
  rw [sign_units hx hx0, sign_units hy hy0]
  cases x.isPositive <;> cases y.isPositive <;> rfl

end Sign

namespace Multipliers

/--
Whole multipliers `t` and `w` that cancel the integers `x` and `y`. Each is the other integer, divided by the greatest
common divisor.
-/
structure InLowestTerms (k : Multipliers) (x y : Int) (t w : Nat) : Prop where
  integral : k.integral = true
  isGreatest : IsGreatest {d : Nat | d ∣ x.natAbs ∧ d ∣ y.natAbs} k.gcd
  euclid : euclid? maxDivisions x.natAbs y.natAbs = some k.gcd
  target : k.target.integer? = some (t : Int)
  copy : k.copy.integer? = some (w : Int)
  target_pos : 0 < t
  copy_pos : 0 < w
  target_le : t ≤ 2 ^ 53
  copy_le : w ≤ 2 ^ 53
  coprime : Nat.Coprime t w
  target_mul : t * k.gcd = y.natAbs
  copy_mul : w * k.gcd = x.natAbs
  cancels : x * t + y * (k.sign.toInt * w) = 0

namespace InLowestTerms

variable {k : Multipliers} {x y : Int} {t w : Nat} (h : k.InLowestTerms x y t w)

include h

theorem gcd_pos : 0 < k.gcd :=
  h.isGreatest.right ⟨Nat.one_dvd _, Nat.one_dvd _⟩

theorem target_le_natAbs : t ≤ y.natAbs := by
  rw [← h.target_mul]
  exact Nat.le_mul_of_pos_right t h.gcd_pos

theorem copy_le_natAbs : w ≤ x.natAbs := by
  rw [← h.copy_mul]
  exact Nat.le_mul_of_pos_right w h.gcd_pos

end InLowestTerms

theorem cancels_of_natAbs {x y : Int} {t w d : Nat} (hy : y ≠ 0) (htarget : t * d = y.natAbs)
    (hcopy : w * d = x.natAbs) : x * t + y * (-(x.sign * y.sign) * w) = 0 := by
  have hsquare : y.sign * y.sign = 1 := by
    rw [← Int.sign_mul, Int.sign_eq_one_of_pos (mul_self_pos.mpr hy)]
  have hx : x = x.sign * (w * d) := by
    rw [← Int.natCast_mul, hcopy, Int.sign_mul_natAbs]
  have hy : y = y.sign * (t * d) := by
    rw [← Int.natCast_mul, htarget, Int.sign_mul_natAbs]
  -- The sign of `y` cancels against the one in the sign of the product.
  calc
    x * t + y * (-(x.sign * y.sign) * w)
      = x.sign * (w * d) * t + y.sign * (t * d) * (-(x.sign * y.sign) * w) := by rw [← hx, ← hy]
    _ = x.sign * (w * d) * t * (1 - y.sign * y.sign) := by ring
    _ = 0 := by rw [hsquare, sub_self, mul_zero]

theorem exists_inLowestTerms {upper lower : Binary64} {k : Multipliers} (hk : integral? upper lower = some k)
    (hupper : upper.isZero = false) (hlower : lower.isZero = false) :
    ∃ x y t w, upper.exactInteger? = some x ∧ lower.exactInteger? = some y ∧ k.InLowestTerms x y t w := by
  obtain ⟨x, y, hx, hy, rfl⟩ := integral?_eq_some.mp hk
  obtain ⟨hxint, hxle⟩ := exactInteger?_eq_some.mp hx
  obtain ⟨hyint, hyle⟩ := exactInteger?_eq_some.mp hy
  have hxne := mt (isZero_iff_of_integer? hxint).mpr (by simp [hupper])
  have hyne := mt (isZero_iff_of_integer? hyint).mpr (by simp [hlower])
  have hdx := Nat.gcd_dvd_left x.natAbs y.natAbs
  have hdy := Nat.gcd_dvd_right x.natAbs y.natAbs
  have hpos : 0 < Nat.gcd x.natAbs y.natAbs := Nat.gcd_pos_of_pos_left _ (Int.natAbs_pos.mpr hxne)
  have htle := Nat.le_trans (Nat.div_le_self y.natAbs (Nat.gcd x.natAbs y.natAbs)) hyle
  have hwle := Nat.le_trans (Nat.div_le_self x.natAbs (Nat.gcd x.natAbs y.natAbs)) hxle
  have hsign := Sign.toInt_eq_neg_sign (isFinite_of_integer? hxint) (isFinite_of_integer? hyint) hupper hlower
  rw [sign_of_integer? hxint, sign_of_integer? hyint] at hsign
  refine ⟨x, y, y.natAbs / Nat.gcd x.natAbs y.natAbs, x.natAbs / Nat.gcd x.natAbs y.natAbs, hx, hy, ?_⟩
  exact {
    integral := rfl
    isGreatest := isGreatest_gcd (Int.natAbs_ne_zero.mpr hxne)
    euclid := euclid?_of_le hyle
    target := integer?_ofNat htle
    copy := integer?_ofNat hwle
    target_pos := Nat.div_pos (Nat.le_of_dvd (Int.natAbs_pos.mpr hyne) hdy) hpos
    copy_pos := Nat.div_pos (Nat.le_of_dvd (Int.natAbs_pos.mpr hxne) hdx) hpos
    target_le := htle
    copy_le := hwle
    coprime := (Nat.coprime_div_gcd_div_gcd hpos).symm
    target_mul := Nat.div_mul_cancel hdy
    copy_mul := Nat.div_mul_cancel hdx
    cancels := by
      rw [hsign]
      exact cancels_of_natAbs hyne (Nat.div_mul_cancel hdy) (Nat.div_mul_cancel hdx)
  }

end Multipliers

end RowSweep
