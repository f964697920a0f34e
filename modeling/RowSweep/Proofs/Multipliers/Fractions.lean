import RowSweep.Proofs.Multipliers.Shift

/-!
This module contains values below one half that are not too small. None of them is an integer, their scaled multipliers
lose no digit in a product, and what such multipliers make of them stays below one.
-/

namespace RowSweep

open Binary64

attribute [local irreducible] unitsPerOne rangeEnd

namespace Binary64

def IsFraction (x : Binary64) : Prop :=
  x.isFinite = true ∧ (x.isZero = true ∨ (2 ^ (-480 : Int) ≤ |x.toRat| ∧ |x.toRat| < 1 / 2))

theorem isFraction_iff {x : Binary64} :
    x.IsFraction ↔ x.isFinite = true ∧ (x.isZero = true ∨ (2 ^ 594 ≤ x.magnitude ∧ x.magnitude < 2 ^ 1073)) := by
  obtain ⟨low, hlow⟩ : ∃ low, low = 594 := ⟨_, rfl⟩
  obtain ⟨high, hhigh⟩ : ∃ high, high = 1073 := ⟨_, rfl⟩
  have hone : unitsPerOne = 2 ^ high * 2 := (unitsPerOne_eq (by omega)).trans (Nat.pow_succ 2 high)
  have hsplit : unitsPerOne = 2 ^ low * 2 ^ 480 := by
    rw [← Nat.pow_add]
    exact unitsPerOne_eq (by omega)
  have hlower : (2 : ℚ) ^ (-480 : Int) * unitsPerOne = ((2 ^ low : Nat) : ℚ) := by
    have hpow : (2 : ℚ) ^ (480 : Int) = ((2 ^ 480 : Nat) : ℚ) := by
      rw [Nat.cast_pow]
      exact zpow_natCast 2 480
    rw [hsplit, zpow_neg, hpow, Nat.cast_mul, ← div_eq_inv_mul]
    exact mul_div_cancel_right₀ _ (by positivity)
  have hupper : (1 / 2 : ℚ) * unitsPerOne = ((2 ^ high : Nat) : ℚ) := by
    rw [hone]
    push_cast
    ring
  unfold IsFraction
  rw [abs_toRat, le_div_iff₀ unitsPerOne_cast_pos, div_lt_iff₀ unitsPerOne_cast_pos, hlower, hupper, Nat.cast_le,
    Nat.cast_lt, hlow, hhigh]

instance (x : Binary64) : Decidable x.IsFraction :=
  decidable_of_iff' _ isFraction_iff

namespace IsFraction

variable {x : Binary64} (h : x.IsFraction)

include h

theorem magnitude_cases : x.magnitude = 0 ∨ 2 ^ 594 ≤ x.magnitude := by
  obtain ⟨hfinite, hrange⟩ := isFraction_iff.mp h
  exact hrange.imp (isZero_iff_magnitude hfinite).mp (·.left)

theorem le_magnitude (hzero : x.isZero = false) : 2 ^ 594 ≤ x.magnitude :=
  h.magnitude_cases.resolve_left (magnitude_ne_zero h.left hzero)

theorem magnitude_lt : x.magnitude < 2 ^ 1073 := by
  obtain ⟨hfinite, hrange⟩ := isFraction_iff.mp h
  cases hrange with
  | inl hzero =>
    rw [(isZero_iff_magnitude hfinite).mp hzero]
    positivity
  | inr hrange => exact hrange.right

theorem magnitude_lt_unitsPerOne : x.magnitude < unitsPerOne := by
  obtain ⟨high, hhigh⟩ : ∃ high, high = 1073 := ⟨_, rfl⟩
  have hlt := h.magnitude_lt
  rw [← hhigh] at hlt
  rw [unitsPerOne_eq (e := high + 1) (by omega), Nat.pow_succ]
  omega

theorem within : Within ((2 ^ 53 - 1) * 2 ^ 1020) x := by
  obtain ⟨e, he⟩ : ∃ e, e = 1020 := ⟨_, rfl⟩
  have hhigh : 1073 = 53 + e := by omega
  have hlt := h.magnitude_lt
  rw [hhigh, Nat.pow_add] at hlt
  rw [← he]
  exact ⟨h.left, le_of_lt_two_pow (spareBits_dvd_magnitude x) hlt⟩

end IsFraction

theorem fits_largestBelow : Fits (2 * ((2 ^ 53 - 1) * 2 ^ 1020)) ∧ Fits ((2 ^ 53 - 1) * 2 ^ 1020) ∧
    2 * ((2 ^ 53 - 1) * 2 ^ 1020) < unitsPerOne := by
  obtain ⟨e, he⟩ : ∃ e, e = 1020 := ⟨_, rfl⟩
  have hone : unitsPerOne = 2 ^ 53 * 2 ^ (e + 1) := by
    rw [← Nat.pow_add]
    exact unitsPerOne_eq (by omega)
  have hdouble : 2 * ((2 ^ 53 - 1) * 2 ^ e) = (2 ^ 53 - 1) * 2 ^ (e + 1) := by
    rw [Nat.pow_succ]
    omega
  have hlt : (2 ^ 53 - 1) * 2 ^ (e + 1) < unitsPerOne := by
    rw [hone]
    exact Nat.mul_lt_mul_of_pos_right (by decide) (Nat.two_pow_pos _)
  have hrange := lt_rangeEnd_of_fits fits_unitsPerOne
  rw [← he, hdouble]
  refine ⟨fits_of_dvd (spareBits_dvd_mul_two_pow (by decide) _) (by omega),
    fits_of_dvd (spareBits_dvd_mul_two_pow (by decide) _) ?_, hlt⟩
  omega

theorem magnitude_abs_max {x y : Binary64} (hx : x.isFinite = true) (hy : y.isFinite = true) :
    (x.abs.max y.abs).magnitude = Max.max x.magnitude y.magnitude := by
  rw [max_eq_larger (by simpa) (by simpa)]
  exact Multipliers.magnitude_largest hx hy

section product

variable {x y : Binary64} (hx : x.magnitude = 0 ∨ 2 ^ 594 ≤ x.magnitude) (hy : 2 ^ 595 ≤ y.magnitude)

include hx hy

theorem le_mul_magnitude : x.magnitude * y.magnitude = 0 ∨ 2 ^ 115 * unitsPerOne ≤ x.magnitude * y.magnitude := by
  obtain ⟨low, hlow⟩ : ∃ low, low = 594 := ⟨_, rfl⟩
  obtain ⟨low', hlow'⟩ : ∃ low', low' = 595 := ⟨_, rfl⟩
  obtain ⟨one, hone⟩ : ∃ one, one = 1074 := ⟨_, rfl⟩
  rw [← hlow] at hx
  rw [← hlow'] at hy
  cases hx with
  | inl hzero => exact Or.inl (by rw [hzero, Nat.zero_mul])
  | inr hle =>
    refine Or.inr (Nat.le_trans ?_ (Nat.mul_le_mul hle hy))
    rw [unitsPerOne_eq hone, ← Nat.pow_add, ← Nat.pow_add]
    exact Nat.pow_le_pow_right (by decide) (by omega)

theorem isNormalProduct_of_le : x.IsNormalProduct y := by
  apply (le_mul_magnitude hx hy).imp_right
  exact Nat.le_trans (Nat.mul_le_mul_right _ (Nat.pow_le_pow_right (by decide) (by decide)))

theorem le_magnitude_mul (hxy : (x * y).isFinite = true) (hfinite : x.isFinite = true) (hfinite' : y.isFinite = true) :
    (x * y).magnitude = 0 ∨ 2 ^ 115 ≤ (x * y).magnitude := by
  rw [magnitude_mul hfinite hfinite' hxy]
  cases le_mul_magnitude hx hy with
  | inl hzero => exact Or.inl (by rw [hzero, roundUnits_zero])
  | inr hle => exact Or.inr (le_roundUnits unitsPerOne_pos (spareBits_dvd_two_pow _) hle)

end product

end Binary64

namespace Multipliers

section scaling

variable {pivot lower : Binary64} (hpivot : pivot.IsFraction) (hlower : lower.IsFraction)
variable (hpivot0 : pivot.isZero = false) (hlower0 : lower.isZero = false)

include hpivot hlower hpivot0 hlower0

theorem isComparable_of_isFraction : pivot.IsComparable lower := by
  obtain ⟨low, hlow⟩ : ∃ low, low = 594 := ⟨_, rfl⟩
  obtain ⟨high, hhigh⟩ : ∃ high, high = 1073 := ⟨_, rfl⟩
  obtain ⟨range, hrange⟩ : ∃ range, range = 1022 := ⟨_, rfl⟩
  have hspread : ∀ {x y : Nat}, x < 2 ^ high → 2 ^ low ≤ y → x ≤ 2 ^ range * y := by
    intro x y hx hy
    apply Nat.le_trans (Nat.le_of_lt hx)
    apply Nat.le_trans _ (Nat.mul_le_mul_left _ hy)
    rw [← Nat.pow_add]
    exact Nat.pow_le_pow_right (by decide) (by omega)
  have hpivotLow := hpivot.le_magnitude hpivot0
  have hlowerLow := hlower.le_magnitude hlower0
  have hpivotHigh := hpivot.magnitude_lt
  have hlowerHigh := hlower.magnitude_lt
  rw [← hlow] at hpivotLow hlowerLow
  rw [← hhigh] at hpivotHigh hlowerHigh
  unfold IsComparable
  rw [← hrange]
  exact ⟨hspread hpivotHigh hlowerLow, hspread hlowerHigh hpivotLow⟩

theorem le_magnitude_scaling :
    2 ^ 595 ≤ (scaling pivot lower).target.magnitude ∧ 2 ^ 595 ≤ (scaling pivot lower).copy.magnitude := by
  obtain ⟨low, hlow⟩ : ∃ low, low = 594 := ⟨_, rfl⟩
  obtain ⟨high, hhigh⟩ : ∃ high, high = 1073 := ⟨_, rfl⟩
  have hpivotLow := hpivot.le_magnitude hpivot0
  have hlowerLow := hlower.le_magnitude hlower0
  have hpivotHigh := hpivot.magnitude_lt
  have hlowerHigh := hlower.magnitude_lt
  have hlargest := isFinite_largest hpivot.left hlower.left
  have hmagnitude := magnitude_largest hpivot.left hlower.left
  rw [← hlow] at hpivotLow hlowerLow
  rw [← hhigh] at hpivotHigh hlowerHigh
  have hlargestHigh : (pivot.abs.larger lower.abs).magnitude ≤ 2 ^ high := by omega
  have hne : (pivot.abs.larger lower.abs).magnitude ≠ 0 := by
    have := Nat.two_pow_pos low
    omega
  have hquotient : ∀ {x : Binary64}, x.isFinite = true → 2 ^ low ≤ x.magnitude →
      (x.abs / pivot.abs.larger lower.abs).isFinite = true →
        2 ^ (low + 1) ≤ (x.abs / pivot.abs.larger lower.abs).magnitude := by
    intro x hx hle hdiv
    rw [magnitude_div (by simpa) hlargest hne hdiv, magnitude_abs]
    apply le_roundUnits (Nat.pos_of_ne_zero hne) (spareBits_dvd_two_pow _)
    apply Nat.le_trans (Nat.mul_le_mul_left _ hlargestHigh)
    rw [unitsPerOne_eq (e := high + 1) (by omega)]
    apply Nat.le_trans _ (Nat.mul_le_mul_right _ hle)
    rw [← Nat.pow_add, ← Nat.pow_add]
    exact Nat.pow_le_pow_right (by decide) (by omega)
  have hlow' : 595 = low + 1 := by omega
  obtain ⟨htarget, hcopy⟩ := within_scaling hpivot.left hlower.left hpivot0
  rw [hlow']
  exact ⟨hquotient hlower.left hlowerLow htarget.isFinite, hquotient hpivot.left hpivotLow hcopy.isFinite⟩

theorem isNormalCell_scaling {x y : Binary64} (hx : x.IsFraction) (hy : y.IsFraction)
    (hsnap : 2 ^ 1030 ≤ zeroSnap.magnitude) : (scaling pivot lower).IsNormalCell zeroSnap x y := by
  obtain ⟨htarget, hcopy⟩ := le_magnitude_scaling hpivot hlower hpivot0 hlower0
  obtain ⟨hwithin, hwithinCopy⟩ := within_scaling hpivot.left hlower.left hpivot0
  obtain ⟨snap, hsnapEq⟩ : ∃ snap, snap = 1030 := ⟨_, rfl⟩
  obtain ⟨one, hone⟩ : ∃ one, one = 1074 := ⟨_, rfl⟩
  generalize scaling pivot lower = k at *
  have hcopy' : 2 ^ 595 ≤ (k.sign.apply k.copy).magnitude := by rwa [Sign.magnitude_apply]
  have hcopyFinite : (k.sign.apply k.copy).isFinite = true := by simpa using hwithinCopy.isFinite
  have hleft : (x * k.target).isFinite = true :=
    (Within.mul_of_le_one (fits_magnitude x) (within_self hx.left) hwithin).isFinite
  have hright : (y * k.sign.apply k.copy).isFinite = true :=
    (Within.mul_of_le_one (fits_magnitude y) (within_self hy.left)
      ⟨hcopyFinite, by simpa using hwithinCopy.magnitude_le⟩).isFinite
  refine ⟨isNormalProduct_of_le hx.magnitude_cases htarget, isNormalProduct_of_le hy.magnitude_cases hcopy', ?_⟩
  have hu := le_magnitude_mul hx.magnitude_cases htarget hleft hx.left hwithin.isFinite
  have hw := le_magnitude_mul hy.magnitude_cases hcopy' hright hy.left hcopyFinite
  unfold IsNormalProduct
  rw [magnitude_abs_max hleft hright]
  have hmax : Max.max (x * k.target).magnitude (y * k.sign.apply k.copy).magnitude = 0 ∨
      2 ^ 115 ≤ Max.max (x * k.target).magnitude (y * k.sign.apply k.copy).magnitude := by omega
  apply hmax.imp
  . intro hzero
    rw [hzero, Nat.mul_zero]
  . intro hle
    rw [← hsnapEq] at hsnap
    apply Nat.le_trans _ (Nat.mul_le_mul hsnap hle)
    rw [unitsPerOne_eq hone, ← Nat.pow_add, ← Nat.pow_add]
    exact Nat.pow_le_pow_right (by decide) (by omega)

omit hlower0 in
theorem combineCell_lt_one {x y : Binary64} (hx : x.IsFraction) (hy : y.IsFraction) (zeroSnap : Binary64) :
    ((scaling pivot lower).combineCell zeroSnap x y).isFinite = true ∧
      ((scaling pivot lower).combineCell zeroSnap x y).magnitude < unitsPerOne := by
  obtain ⟨hfits, hfits', hlt⟩ := fits_largestBelow
  obtain ⟨htarget, hcopy⟩ := within_scaling hpivot.left hlower.left hpivot0
  have hcell : Within _ ((scaling pivot lower).combineCell zeroSnap x y) :=
    within_combineCell hfits htarget hcopy hx.within hy.within hfits'
  exact ⟨hcell.isFinite, Nat.lt_of_le_of_lt hcell.magnitude_le hlt⟩

end scaling

end Multipliers

end RowSweep
