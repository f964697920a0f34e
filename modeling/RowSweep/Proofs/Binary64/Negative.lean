import RowSweep.Proofs.Binary64.Shift

/-!
This module contains the sign bit, which also tells the two zeros apart. It follows from the operands as long as these
are finite, so values that are a power of two apart with the same sign bit stay so.
-/

namespace RowSweep.Binary64

attribute [local irreducible] unitsPerOne rangeEnd

def isNegative : Binary64 → Bool
  | nan => false
  | infinite s => s
  | finite s _ _ => s

@[simp]
theorem isNegative_round (s : Bool) (n d : Nat) : (round s n d).isNegative = s := by
  unfold round
  dsimp only
  split <;> rfl

@[simp]
theorem isNegative_abs (x : Binary64) : x.abs.isNegative = false := by
  cases x <;> rfl

variable {x y x' y' : Binary64} {e f : Int}

theorem isNegative_neg (hx : x.isFinite = true) : (-x).isNegative = !x.isNegative := by
  obtain ⟨s, u, hu, rfl⟩ := exists_of_isFinite hx
  rfl

theorem isNegative_scale (hx : x.isFinite = true) (k : Int) : (x.scale k).isNegative = x.isNegative := by
  obtain ⟨s, u, hu, rfl⟩ := exists_of_isFinite hx
  exact isNegative_round s _ _

theorem isNegative_mul (hx : x.isFinite = true) (hy : y.isFinite = true) :
    (x * y).isNegative = (x.isNegative != y.isNegative) := by
  obtain ⟨s, u, hu, rfl⟩ := exists_of_isFinite hx
  obtain ⟨t, v, hv, rfl⟩ := exists_of_isFinite hy
  exact isNegative_round (s != t) _ _

theorem isNegative_div (hx : x.isFinite = true) (hy : y.isFinite = true) (hzero : y.magnitude ≠ 0) :
    (x / y).isNegative = (x.isNegative != y.isNegative) := by
  obtain ⟨s, u, hu, rfl⟩ := exists_of_isFinite hx
  obtain ⟨t, v, hv, rfl⟩ := exists_of_isFinite hy
  rw [magnitude_finite] at hzero
  show (div _ _).isNegative = _
  simp only [div, hzero, if_false]
  exact isNegative_round (s != t) _ _

theorem isNegative_add (hx : x.isFinite = true) (hy : y.isFinite = true) :
    (x + y).isNegative =
      if x.units + y.units = 0 then x.isNegative && y.isNegative else decide (x.units + y.units < 0) := by
  obtain ⟨s, u, hu, rfl⟩ := exists_of_isFinite hx
  obtain ⟨t, v, hv, rfl⟩ := exists_of_isFinite hy
  show (add _ _).isNegative = if signed s u + signed t v = 0 then s && t else decide (signed s u + signed t v < 0)
  unfold add
  dsimp only
  split
  . rfl
  . exact isNegative_round _ _ _

/--
Two finite values of which the second one is the first one times `2 ^ e`, also if both are zero.
-/
structure Scaled (e : Int) (x y : Binary64) : Prop where
  shifted : Shifted e x y
  isNegative_eq : y.isNegative = x.isNegative

namespace Scaled

theorem eq (h : Scaled 0 x y) : y = x := by
  obtain ⟨⟨hx, hy, hunits⟩, hnegative⟩ := h
  obtain ⟨s, u, hu, rfl⟩ := exists_of_isFinite hx
  obtain ⟨t, v, hv, rfl⟩ := exists_of_isFinite hy
  obtain rfl : t = s := hnegative
  rw [zpow_zero, mul_one, Int.cast_inj] at hunits
  have hmagnitude := congrArg Int.natAbs hunits
  rw [units, units, natAbs_signed, natAbs_signed] at hmagnitude
  subst hmagnitude
  rfl

theorem neg (h : Scaled e x x') : Scaled e (-x) (-x') :=
  ⟨h.shifted.neg, by rw [isNegative_neg h.shifted.left, isNegative_neg h.shifted.right, h.isNegative_eq]⟩

theorem mul (hx : Scaled e x x') (hy : Scaled f y y') (h : Shifted g (x * y) (x' * y')) :
    Scaled g (x * y) (x' * y') := by
  refine ⟨h, ?_⟩
  rw [isNegative_mul hx.shifted.left hy.shifted.left, isNegative_mul hx.shifted.right hy.shifted.right,
    hx.isNegative_eq, hy.isNegative_eq]

theorem add (hx : Scaled e x x') (hy : Scaled e y y') (h : Shifted e (x + y) (x' + y')) :
    Scaled e (x + y) (x' + y') := by
  -- Where the sum is zero its sign bit comes from the terms, and elsewhere it is the sign of the sum.
  have hsum : ((x'.units + y'.units : Int) : ℚ) = (x.units + y.units : Int) * 2 ^ e := by
    push_cast
    rw [hx.shifted.units_eq, hy.shifted.units_eq, add_mul]
  have hsign := sign_eq_of_eq_mul (zpow_pos two_pos e) hsum
  have hzero : x'.units + y'.units = 0 ↔ x.units + y.units = 0 := by
    rw [← Int.sign_eq_zero_iff_zero, hsign, Int.sign_eq_zero_iff_zero]
  have hnegative : x'.units + y'.units < 0 ↔ x.units + y.units < 0 := by
    rw [← Int.sign_eq_neg_one_iff_neg, hsign, Int.sign_eq_neg_one_iff_neg]
  refine ⟨h, ?_⟩
  rw [isNegative_add hx.shifted.left hy.shifted.left, isNegative_add hx.shifted.right hy.shifted.right,
    hx.isNegative_eq, hy.isNegative_eq]
  simp only [hzero, hnegative]

end Scaled

theorem scaled_scale {k : Int} (h : Shifted k x (x.scale k)) : Scaled k x (x.scale k) :=
  ⟨h, isNegative_scale h.left k⟩

end RowSweep.Binary64
