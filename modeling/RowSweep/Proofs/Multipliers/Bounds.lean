import RowSweep.Proofs.Row.Rescale

/-!
This module contains bounds on multipliers and on the cells of a combined row. Scaled multipliers are at
most one, so they at most double a bound; whole multipliers are only kept if the result stays in the
exact range.
-/

namespace RowSweep

open Binary64

attribute [local irreducible] unitsPerOne rangeEnd

namespace Sign

@[simp]
theorem isFinite_apply (s : Sign) (x : Binary64) : (s.apply x).isFinite = x.isFinite := by
  cases s <;> simp [apply]

@[simp]
theorem magnitude_apply (s : Sign) (x : Binary64) : (s.apply x).magnitude = x.magnitude := by
  cases s <;> simp [apply]

end Sign

namespace Binary64

def IsUnsigned (x : Binary64) : Prop :=
  ∃ u hu, x = finite false u hu

theorem IsUnsigned.isFinite (h : IsUnsigned x) : x.isFinite = true := by
  obtain ⟨u, hu, rfl⟩ := h
  rfl

theorem isUnsigned_zero : IsUnsigned zero :=
  ⟨0, fits_zero, rfl⟩

theorem isUnsigned_abs (h : isFinite x = true) : IsUnsigned x.abs := by
  obtain ⟨s, u, hu, rfl⟩ := exists_of_isFinite h
  exact ⟨u, hu, rfl⟩

theorem round_unsigned (n d : Nat) :
    IsUnsigned (round false n d) ∨ (rangeEnd ≤ roundUnits n d ∧ round false n d = infinite false) := by
  unfold round
  dsimp only
  split
  next h => exact Or.inl ⟨_, _, rfl⟩
  next h =>
    rw [log2_lt_iff] at h
    exact Or.inr ⟨by omega, rfl⟩

theorem isUnsigned_ofNat (h : i ≤ 2 ^ 53) : IsUnsigned (ofNat i) := by
  cases round_unsigned (i * unitsPerOne) 1 with
  | inl hround => exact hround
  | inr hround =>
    have hfinite := (ofNat_spec h).left
    rw [ofNat, hround.right] at hfinite
    cases hfinite

theorem isUnsigned_twoPow (hlow : -1074 ≤ k) (hhigh : k < 1024) : IsUnsigned (twoPow k) := by
  obtain ⟨u, hu, hone⟩ := isUnsigned_ofNat (i := 1) (by decide)
  have hfinite := (twoPow_spec hlow hhigh).left
  unfold twoPow at *
  rw [one_eq, hone] at *
  cases round_unsigned (u * 2 ^ k.toNat) (2 ^ (-k).toNat) with
  | inl h => exact h
  | inr h =>
    change (round false (u * 2 ^ k.toNat) (2 ^ (-k).toNat)).isFinite = true at hfinite
    rw [h.right] at hfinite
    cases hfinite

theorem isUnsigned_max (hx : IsUnsigned x) (hy : IsUnsigned y) : IsUnsigned (x.max y) := by
  rw [max_eq_larger hx.isFinite hy.isFinite]
  cases larger_cases x y with
  | inl h => rwa [h]
  | inr h => rwa [h]

theorem mul_unsigned (hx : IsUnsigned x) (hy : IsUnsigned y) :
    IsUnsigned (x * y) ∨ x * y = infinite false := by
  obtain ⟨u, hu, rfl⟩ := hx
  obtain ⟨v, hv, rfl⟩ := hy
  cases round_unsigned (u * v) unitsPerOne with
  | inl h => exact Or.inl h
  | inr h => exact Or.inr h.right

theorem IsUnsigned.units_eq (h : IsUnsigned x) : x.units = x.magnitude := by
  obtain ⟨u, hu, rfl⟩ := h
  simp [units, signed]

theorem add_unsigned (hx : IsUnsigned x) (hy : IsUnsigned y) :
    IsUnsigned (x + y) ∨ x + y = infinite false := by
  obtain ⟨u, hu, rfl⟩ := hx
  obtain ⟨v, hv, rfl⟩ := hy
  have hpos : ¬ signed false u + signed false v < 0 := by
    simp [signed]
    omega
  show IsUnsigned (add _ _) ∨ add _ _ = _
  simp only [add, decide_eq_false hpos]
  split
  . exact Or.inl isUnsigned_zero
  . cases round_unsigned (signed false u + signed false v).natAbs 1 with
    | inl h => exact Or.inl h
    | inr h => exact Or.inr h.right

-- An infinite term makes the sum infinite, and an infinite sum is above the limit.
theorem unsigned_of_add_le (hx : IsUnsigned x ∨ x = infinite false)
    (hy : IsUnsigned y ∨ y = infinite false) (h : (x + y).le exactLimit = true) :
    IsUnsigned x ∧ IsUnsigned y ∧ IsUnsigned (x + y) := by
  obtain ⟨s, l, hl, hlimit⟩ := exists_of_isFinite isFinite_exactLimit
  rw [hlimit] at h
  cases hx with
  | inl hx =>
    cases hy with
    | inl hy =>
      cases add_unsigned hx hy with
      | inl hsum => exact ⟨hx, hy, hsum⟩
      | inr hsum =>
        rw [hsum] at h
        cases h
    | inr hy =>
      obtain ⟨u, hu, rfl⟩ := hx
      rw [hy] at h
      cases h
  | inr hx =>
    cases hy with
    | inl hy =>
      obtain ⟨v, hv, rfl⟩ := hy
      rw [hx] at h
      cases h
    | inr hy =>
      rw [hx, hy] at h
      cases h

theorem magnitude_mul (hx : isFinite x = true) (hy : isFinite y = true)
    (hxy : isFinite (x * y) = true) :
    magnitude (x * y) = roundUnits (x.magnitude * y.magnitude) unitsPerOne := by
  by_cases h : roundUnits (x.magnitude * y.magnitude) unitsPerOne < rangeEnd
  . exact (mul_spec hx hy h).right
  . obtain ⟨s, u, hu, rfl⟩ := exists_of_isFinite hx
    obtain ⟨t, v, hv, rfl⟩ := exists_of_isFinite hy
    rw [magnitude_finite, magnitude_finite, ← log2_lt_iff] at h
    change isFinite (round (s != t) (u * v) unitsPerOne) = true at hxy
    simp [round, h, Binary64.isFinite] at hxy

theorem magnitude_div (hx : isFinite x = true) (hy : isFinite y = true) (hzero : y.magnitude ≠ 0)
    (hxy : isFinite (x / y) = true) :
    magnitude (x / y) = roundUnits (x.magnitude * unitsPerOne) y.magnitude := by
  by_cases h : roundUnits (x.magnitude * unitsPerOne) y.magnitude < rangeEnd
  . exact (div_spec hx hy hzero h).right
  . obtain ⟨s, u, hu, rfl⟩ := exists_of_isFinite hx
    obtain ⟨t, v, hv, rfl⟩ := exists_of_isFinite hy
    rw [magnitude_finite] at hzero
    rw [magnitude_finite, magnitude_finite, ← log2_lt_iff] at h
    change isFinite (div (finite s u hu) (finite t v hv)) = true at hxy
    simp [div, hzero, round, h, Binary64.isFinite] at hxy

theorem magnitude_add_unsigned (hx : IsUnsigned x) (hy : IsUnsigned y)
    (hxy : isFinite (x + y) = true) :
    magnitude (x + y) = roundUnits (x.magnitude + y.magnitude) 1 := by
  obtain ⟨u, hu, rfl⟩ := hx
  obtain ⟨v, hv, rfl⟩ := hy
  have hsum : (units (finite false u hu) + units (finite false v hv)).natAbs = u + v := by
    simp [units, signed]
    omega
  rw [magnitude_finite, magnitude_finite]
  by_cases h : roundUnits (u + v) 1 < rangeEnd
  . rw [← hsum] at h
    rw [magnitude, (add_spec rfl rfl h).right, natAbs_signed, hsum]
  . change isFinite (add (finite false u hu) (finite false v hv)) = true at hxy
    simp only [add] at hxy
    split at hxy
    next hzero =>
      have huv : u + v = 0 := by
        simp [signed] at hzero
        omega
      rw [huv, roundUnits_zero] at h
      exact absurd rangeEnd_pos h
    next =>
      have hnat : (signed false u + signed false v).natAbs = u + v := hsum
      rw [← log2_lt_iff] at h
      simp [round, hnat, h, Binary64.isFinite] at hxy

end Binary64

theorem Row.isUnsigned_peak {row : Row n} (finite : ∀ j : Fin n, row[j].isFinite = true) :
    IsUnsigned row.peak := by
  rw [peak_eq_foldl]
  have hcells := (forall_mem_toList (P := fun x => x.isFinite = true)).mpr finite
  have hstart := isUnsigned_zero
  generalize row.toList = cells at hcells
  generalize Binary64.zero = largest at hstart
  induction cells generalizing largest with
  | nil => exact hstart
  | cons x cells ih =>
    rw [List.foldl_cons]
    apply ih
    . intro y hy
      exact hcells y (by simp [hy])
    . exact isUnsigned_max hstart (isUnsigned_abs (hcells x (by simp)))

namespace Multipliers

theorem getElem_combine (k : Multipliers) (zeroSnap : Binary64) (upper lower : Row n) (j : Fin n) :
    (k.combine zeroSnap upper lower)[j] = k.combineCell zeroSnap upper[j] lower[j] := by
  simp [combine, getElem_fin]

theorem combineCell_cases (k : Multipliers) (zeroSnap upper lower : Binary64) :
    k.combineCell zeroSnap upper lower = .zero ∨
      k.combineCell zeroSnap upper lower = upper * k.target + lower * k.sign.apply k.copy := by
  unfold combineCell
  dsimp only
  split
  . exact Or.inl rfl
  . exact Or.inr rfl

theorem isZero_combineCell {k : Multipliers} (htarget : k.target.isFinite = true)
    (hcopy : k.copy.isFinite = true) (hupper : upper.isZero = true) (hlower : lower.isZero = true) :
    (k.combineCell zeroSnap upper lower).isZero = true := by
  cases k.combineCell_cases zeroSnap upper lower with
  | inl h => rw [h, isZero_zero]
  | inr h =>
    rw [h]
    apply isZero_add
    . exact isZero_mul_left hupper htarget
    . exact isZero_mul_left hlower (by simpa using hcopy)

/-!
### Scaled multipliers
-/

section scaling

variable {pivot lower : Binary64} (hpivot : pivot.isFinite = true) (hlower : lower.isFinite = true)

include hpivot hlower

theorem isFinite_largest : (pivot.abs.larger lower.abs).isFinite = true := by
  apply isFinite_larger <;> simpa

theorem magnitude_largest :
    (pivot.abs.larger lower.abs).magnitude = Max.max pivot.magnitude lower.magnitude := by
  rw [magnitude, units_larger (by simpa) (by simpa), units_abs, units_abs]
  omega

theorem within_scaling (hzero : pivot.isZero = false) :
    Within unitsPerOne (scaling pivot lower).target ∧
      Within unitsPerOne (scaling pivot lower).copy := by
  have hlargest := isFinite_largest hpivot hlower
  have hmag := magnitude_largest hpivot hlower
  have hne := magnitude_ne_zero hpivot hzero
  constructor
  . apply within_div fits_unitsPerOne (by simpa) hlargest (by omega)
    rw [hmag, magnitude_abs, Nat.mul_comm]
    exact Nat.mul_le_mul_left _ (Nat.le_max_right _ _)
  . apply within_div fits_unitsPerOne (by simpa) hlargest (by omega)
    rw [hmag, magnitude_abs, Nat.mul_comm]
    exact Nat.mul_le_mul_left _ (Nat.le_max_left _ _)

end scaling

theorem within_combineCell {k : Multipliers} (hM : Fits (2 * M)) (htarget : Within unitsPerOne k.target)
    (hcopy : Within unitsPerOne k.copy) (hupper : Within M upper) (hlower : Within M lower)
    (hgrid : Fits M) : Within (2 * M) (k.combineCell zeroSnap upper lower) := by
  cases k.combineCell_cases zeroSnap upper lower with
  | inl h =>
    rw [h]
    exact within_zero _
  | inr h =>
    have hu := Within.mul_of_le_one hgrid hupper htarget
    have happly : Within unitsPerOne (k.sign.apply k.copy) :=
      ⟨by simpa using hcopy.isFinite, by simpa using hcopy.magnitude_le⟩
    have hw := Within.mul_of_le_one hgrid hlower happly
    rw [h]
    apply within_add hM hu.isFinite hw.isFinite
    have := hu.magnitude_le
    have := hw.magnitude_le
    omega

/-!
### Whole multipliers
-/

theorem integral?_eq_some {pivot lower : Binary64} {k : Multipliers} :
    integral? pivot lower = some k ↔
      ∃ x y : Int, pivot.exactInteger? = some x ∧ lower.exactInteger? = some y ∧
        k = ⟨.ofNat (y.natAbs / Nat.gcd x.natAbs y.natAbs), .ofNat (x.natAbs / Nat.gcd x.natAbs y.natAbs),
          if pivot.isPositive == lower.isPositive then .minus else .plus,
          Nat.gcd x.natAbs y.natAbs, true⟩ := by
  unfold integral?
  cases pivot.exactInteger? with
  | none => simp
  | some x =>
    cases lower.exactInteger? with
    | none => simp
    | some y =>
      simp only [Option.bind_eq_bind, Option.bind_some, Option.pure_def, Option.some.injEq,
        exists_eq_left', exists_and_left]
      exact eq_comm

theorem isUnsigned_integral? {k : Multipliers} (h : integral? pivot lower = some k) :
    IsUnsigned k.target ∧ IsUnsigned k.copy := by
  obtain ⟨x, y, hx, hy, rfl⟩ := integral?_eq_some.mp h
  have hxle := (exactInteger?_eq_some.mp hx).right
  have hyle := (exactInteger?_eq_some.mp hy).right
  constructor
  . exact isUnsigned_ofNat (Nat.le_trans (Nat.div_le_self _ _) hyle)
  . exact isUnsigned_ofNat (Nat.le_trans (Nat.div_le_self _ _) hxle)

-- The guard is evaluated with rounding, and rounding is monotone, so it bounds every rounded sum.
theorem within_combineCell_of_staysExact {k : Multipliers} {upper lower : Row n}
    (htarget : IsUnsigned k.target) (hcopy : IsUnsigned k.copy)
    (hupper : ∀ j : Fin n, upper[j].isFinite = true) (hlower : ∀ j : Fin n, lower[j].isFinite = true)
    (hexact : k.staysExact upper lower = true) (j : Fin n) :
    Within (2 ^ 53 * unitsPerOne) (k.combineCell zeroSnap upper[j] lower[j]) := by
  have hu := mul_unsigned htarget (Row.isUnsigned_peak hupper)
  have hw := mul_unsigned hcopy (Row.isUnsigned_peak hlower)
  unfold staysExact at hexact
  obtain ⟨hu, hw, hsum⟩ := unsigned_of_add_le hu hw hexact
  have hpu := Row.isFinite_peak hupper
  have hpw := Row.isFinite_peak hlower
  rw [le_exactLimit_iff hsum.isFinite, hsum.units_eq, magnitude_add_unsigned hu hw hsum.isFinite,
    magnitude_mul htarget.isFinite hpu hu.isFinite,
    magnitude_mul hcopy.isFinite hpw hw.isFinite] at hexact
  have huM := lt_rangeEnd_of_fits (fits_magnitude (k.target * upper.peak))
  have hwM := lt_rangeEnd_of_fits (fits_magnitude (k.copy * lower.peak))
  rw [magnitude_mul htarget.isFinite hpu hu.isFinite] at huM
  rw [magnitude_mul hcopy.isFinite hpw hw.isFinite] at hwM
  -- The two terms of a cell are at most the two terms of the bound.
  have hule : roundUnits (upper[j].magnitude * k.target.magnitude) unitsPerOne ≤
      roundUnits (k.target.magnitude * upper.peak.magnitude) unitsPerOne := by
    apply roundUnits_mono unitsPerOne_pos
    rw [Nat.mul_comm]
    exact Nat.mul_le_mul_left _ (Row.magnitude_le_peak hupper j)
  have hwle : roundUnits (lower[j].magnitude * k.copy.magnitude) unitsPerOne ≤
      roundUnits (k.copy.magnitude * lower.peak.magnitude) unitsPerOne := by
    apply roundUnits_mono unitsPerOne_pos
    rw [Nat.mul_comm]
    exact Nat.mul_le_mul_left _ (Row.magnitude_le_peak hlower j)
  have hmulu := mul_spec (hupper j) htarget.isFinite (Nat.lt_of_le_of_lt hule huM)
  have hmulw := mul_spec (y := k.sign.apply k.copy) (hlower j) (by simpa using hcopy.isFinite)
    (by rw [Sign.magnitude_apply]; exact Nat.lt_of_le_of_lt hwle hwM)
  rw [Sign.magnitude_apply] at hmulw
  cases k.combineCell_cases zeroSnap upper[j] lower[j] with
  | inl h =>
    rw [h]
    exact within_zero _
  | inr h =>
    have habs : (units (upper[j] * k.target) + units (lower[j] * k.sign.apply k.copy)).natAbs ≤
        roundUnits (k.target.magnitude * upper.peak.magnitude) unitsPerOne +
          roundUnits (k.copy.magnitude * lower.peak.magnitude) unitsPerOne := by
      have := hmulu.right
      have := hmulw.right
      unfold magnitude at *
      omega
    have hround := roundUnits_mono (d := 1) (by decide) habs
    have hM := fits_mul_unitsPerOne (Nat.le_refl (2 ^ 53))
    have hlt := lt_rangeEnd_of_fits hM
    have hadd := add_spec hmulu.left hmulw.left (by omega)
    rw [h]
    refine ⟨hadd.left, ?_⟩
    rw [magnitude, hadd.right, natAbs_signed]
    omega

end Multipliers

end RowSweep
