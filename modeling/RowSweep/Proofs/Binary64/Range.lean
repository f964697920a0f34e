import RowSweep.Proofs.Binary64.Value

/-!
This module contains which integers have a finite binary64 value, and that finite values are in the order of the
rational numbers that they stand for.
-/

namespace RowSweep.Binary64

attribute [local instance (high)] instPowNat

def integerRangeEnd : Nat :=
  2 ^ (1024 : Nat) - 2 ^ (970 : Nat)

theorem isFinite_round_iff {s : Bool} {n d : Nat} : (round s n d).isFinite = true ↔ roundUnits n d < rangeEnd := by
  rw [← log2_lt_iff, round]
  split
  next h => exact iff_of_true rfl h
  next h => exact iff_of_false Bool.false_ne_true h

theorem isFinite_ofInt_iff (i : Int) : (ofInt i).isFinite = true ↔ i.natAbs < integerRangeEnd := by
  unfold ofInt
  rw [isFinite_round_iff]
  constructor
  . intro h
    by_contra hle
    have hend : rangeEnd ≤ roundUnits (integerRangeEnd * unitsPerOne) 1 := by decide +kernel
    have hmono := roundUnits_mono (d := 1) (by decide) (Nat.mul_le_mul_right unitsPerOne (Nat.not_lt.mp hle))
    omega
  . intro h
    have hend : roundUnits ((integerRangeEnd - 1) * unitsPerOne) 1 < rangeEnd := by decide +kernel
    have hmono := roundUnits_mono (d := 1) (by decide) (Nat.mul_le_mul_right unitsPerOne (Nat.le_sub_one_of_lt h))
    omega

attribute [local irreducible] unitsPerOne

variable {x y : Binary64}

theorem toRat_le_toRat_iff : x.toRat ≤ y.toRat ↔ x.units ≤ y.units := by
  unfold toRat
  rw [div_le_div_iff_of_pos_right unitsPerOne_cast_pos, Int.cast_le]

theorem le_iff_toRat_le (hx : x.isFinite = true) (hy : y.isFinite = true) : x.le y = true ↔ x.toRat ≤ y.toRat := by
  rw [le_iff hx hy, toRat_le_toRat_iff]

theorem lt_iff_toRat_lt (hx : x.isFinite = true) (hy : y.isFinite = true) : x.lt y = true ↔ x.toRat < y.toRat := by
  rw [lt_iff hx hy, ← not_le, ← not_le, toRat_le_toRat_iff]

theorem le_eq_false_iff (hx : x.isFinite = true) (hy : y.isFinite = true) : x.le y = false ↔ y.toRat < x.toRat := by
  rw [← Bool.not_eq_true, le_iff_toRat_le hx hy, not_le]

theorem lt_eq_false_iff (hx : x.isFinite = true) (hy : y.isFinite = true) : x.lt y = false ↔ y.toRat ≤ x.toRat := by
  rw [← Bool.not_eq_true, lt_iff_toRat_lt hx hy, not_lt]

theorem eqv_iff_toRat_eq (hx : x.isFinite = true) (hy : y.isFinite = true) : x.eqv y = true ↔ x.toRat = y.toRat := by
  unfold eqv
  rw [Bool.and_eq_true, le_iff_toRat_le hx hy, le_iff_toRat_le hy hx]
  exact antisymm_iff

@[simp]
theorem toRat_zero : zero.toRat = 0 := by
  simp [toRat, zero, units]

@[simp]
theorem toRat_one : one.toRat = 1 := by
  have hone : one.integer? = some 1 := by decide +kernel
  rw [toRat_of_integer? hone]
  rfl

end RowSweep.Binary64
