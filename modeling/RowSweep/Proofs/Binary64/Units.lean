import RowSweep.Binary64.Basic
import RowSweep.Proofs.Binary64.Rounding

/-!
This module contains the view of a finite binary64 value as an integer number of units, in which zeros,
signs, comparisons and rounded operations are stated.
-/

namespace RowSweep.Binary64

def units : Binary64 → Int
  | finite s u _ => signed s u
  | _ => 0

def magnitude (x : Binary64) : Nat :=
  x.units.natAbs

def rangeEnd : Nat :=
  2 ^ 2098

@[simp]
theorem natAbs_signed (s : Bool) (u : Nat) : (signed s u).natAbs = u := by
  cases s <;> simp [signed]

@[simp]
theorem signed_zero (s : Bool) : signed s 0 = 0 := by
  cases s <;> rfl

@[simp]
theorem signed_eq_zero {s : Bool} {u : Nat} : signed s u = 0 ↔ u = 0 := by
  cases s <;> simp [signed]

theorem signed_lt_zero_natAbs (z : Int) : signed (decide (z < 0)) z.natAbs = z := by
  unfold signed
  by_cases h : z < 0
  . rw [if_pos (decide_eq_true h)]
    omega
  . rw [if_neg (by simpa using h)]
    omega

theorem signed_bne_mul (s t : Bool) (u v : Nat) :
    signed (s != t) (u * v) = signed s u * signed t v := by
  cases s <;> cases t <;> simp [signed]

-- The exponents are variables here, since powers of this size as literals are slow to elaborate.
theorem unitsPerOne_eq (h : e = 1074) : unitsPerOne = 2 ^ e := by
  rw [unitsPerOne, ← h]

theorem rangeEnd_eq (h : e = 2098) : rangeEnd = 2 ^ e := by
  rw [rangeEnd, ← h]

theorem unitsPerOne_pos : 0 < unitsPerOne := by
  rw [unitsPerOne_eq rfl]
  apply Nat.pow_pos
  decide

theorem rangeEnd_pos : 0 < rangeEnd := by
  rw [rangeEnd_eq rfl]
  apply Nat.pow_pos
  decide

theorem log2_lt_iff (u : Nat) : u.log2 < 2098 ↔ u < rangeEnd := by
  by_cases hu : u = 0
  . subst hu
    exact iff_of_true (by decide) rangeEnd_pos
  . obtain ⟨e, he⟩ : ∃ e, e = 2098 := ⟨_, rfl⟩
    rw [rangeEnd_eq he, ← he]
    exact Nat.log2_lt hu

@[simp]
theorem magnitude_finite (s : Bool) (u : Nat) (h : Fits u) : (finite s u h).magnitude = u := by
  simp [magnitude, units]

theorem exists_of_isFinite (h : isFinite x = true) : ∃ s u hu, x = finite s u hu := by
  cases x with
  | nan => cases h
  | infinite s => cases h
  | finite s u hu => exact ⟨s, u, hu, rfl⟩

theorem spareBits_dvd_magnitude (x : Binary64) : 2 ^ spareBits x.magnitude ∣ x.magnitude := by
  cases x with
  | nan => exact fits_zero.dvd
  | infinite s => exact fits_zero.dvd
  | finite s u hu =>
    rw [magnitude_finite]
    exact hu.dvd

theorem magnitude_lt_rangeEnd (x : Binary64) : x.magnitude < rangeEnd := by
  cases x with
  | nan => exact rangeEnd_pos
  | infinite s => exact rangeEnd_pos
  | finite s u hu =>
    rw [magnitude_finite, ← log2_lt_iff]
    exact hu.log2_lt

theorem magnitude_eq_zero {x : Binary64} : x.magnitude = 0 ↔ x.units = 0 := by
  simp [magnitude]

theorem isZero_iff : isZero x = true ↔ x.isFinite = true ∧ x.units = 0 := by
  cases x <;> simp [isZero, isFinite, units]

theorem isZero_iff_magnitude (h : isFinite x = true) : isZero x = true ↔ x.magnitude = 0 := by
  rw [isZero_iff, magnitude_eq_zero]
  simp [h]

theorem magnitude_ne_zero (hx : isFinite x = true) (h : isZero x = false) : x.magnitude ≠ 0 := by
  rw [ne_eq, ← isZero_iff_magnitude hx, h]
  exact Bool.false_ne_true

theorem isFinite_of_isZero (h : isZero x = true) : x.isFinite = true :=
  (isZero_iff.mp h).left

@[simp]
theorem isZero_zero : isZero zero = true := rfl

@[simp]
theorem isFinite_zero : isFinite zero = true := rfl

@[simp]
theorem units_zero : units zero = 0 := rfl

/-!
### Signs and comparisons
-/

@[simp]
theorem isFinite_neg (x : Binary64) : isFinite (-x) = x.isFinite := by
  cases x <;> rfl

@[simp]
theorem units_neg (x : Binary64) : units (-x) = -x.units := by
  cases x with
  | nan => rfl
  | infinite s => rfl
  | finite s u hu =>
    show signed (!s) u = -signed s u
    cases s <;> simp [signed]

@[simp]
theorem magnitude_neg (x : Binary64) : magnitude (-x) = x.magnitude := by
  simp [magnitude]

@[simp]
theorem isFinite_abs (x : Binary64) : isFinite x.abs = x.isFinite := by
  cases x <;> rfl

@[simp]
theorem units_abs (x : Binary64) : units x.abs = x.magnitude := by
  cases x with
  | nan => rfl
  | infinite s => rfl
  | finite s u hu =>
    rw [magnitude_finite]
    rfl

@[simp]
theorem magnitude_abs (x : Binary64) : magnitude x.abs = x.magnitude := by
  rw [magnitude, units_abs, Int.natAbs_natCast]

theorem le_iff (hx : isFinite x = true) (hy : isFinite y = true) :
    le x y = true ↔ x.units ≤ y.units := by
  obtain ⟨s, u, hu, rfl⟩ := exists_of_isFinite hx
  obtain ⟨t, v, hv, rfl⟩ := exists_of_isFinite hy
  simp [le, units]

theorem lt_iff (hx : isFinite x = true) (hy : isFinite y = true) :
    lt x y = true ↔ x.units < y.units := by
  obtain ⟨s, u, hu, rfl⟩ := exists_of_isFinite hx
  obtain ⟨t, v, hv, rfl⟩ := exists_of_isFinite hy
  simp [lt, units]

theorem lt_asymm (h : lt x y = true) : lt y x = false := by
  cases x with
  | nan => cases h
  | infinite s =>
    cases y with
    | nan => cases h
    | infinite t => cases s <;> cases t <;> first | rfl | cases h
    | finite t v hv => cases s <;> first | rfl | cases h
  | finite s u hu =>
    cases y with
    | nan => cases h
    | infinite t => cases t <;> first | rfl | cases h
    | finite t v hv =>
      simp only [lt, decide_eq_true_iff, decide_eq_false_iff_not] at *
      omega

theorem lt_of_eqv (hx : isFinite x = true) (hxy : le x y = false) (h : eqv z y = true) : lt z x = true := by
  obtain ⟨s, u, hu, rfl⟩ := exists_of_isFinite hx
  unfold eqv at h
  rw [Bool.and_eq_true] at h
  obtain ⟨hzy, hyz⟩ := h
  cases y with
  | nan => cases hyz
  | infinite t =>
    cases z with
    | nan => cases hzy
    | infinite r => cases t <;> cases r <;> simp_all [le, lt]
    | finite r w hw => cases t <;> simp_all [le]
  | finite t v hv =>
    cases z with
    | nan => cases hzy
    | infinite r => cases r <;> simp_all [le]
    | finite r w hw =>
      simp only [le, lt, decide_eq_true_iff, decide_eq_false_iff_not] at *
      omega

theorem isZero_eq_of_eqv (h : eqv x y = true) : x.isZero = y.isZero := by
  unfold eqv at h
  rw [Bool.and_eq_true] at h
  cases x with
  | nan => cases h.left
  | infinite s =>
    cases y with
    | nan => cases h.left
    | infinite t => rfl
    | finite t v hv => cases s <;> simp [le] at h
  | finite s u hu =>
    cases y with
    | nan => cases h.left
    | infinite t => cases t <;> simp [le] at h
    | finite t v hv =>
      simp only [le, decide_eq_true_eq] at h
      have hunits := Int.le_antisymm h.left h.right
      have : u = v := by simpa using congrArg Int.natAbs hunits
      simp [isZero, this]

theorem isPositive_iff (hx : isFinite x = true) : isPositive x = true ↔ 0 < x.units := by
  obtain ⟨s, u, hu, rfl⟩ := exists_of_isFinite hx
  cases s with
  | false => simp [isPositive, units, signed, Nat.pos_iff_ne_zero]
  | true => simp [isPositive, units, signed]

theorem not_isNaN_of_isFinite (h : isFinite x = true) : isNaN x = false := by
  cases x with
  | nan => cases h
  | infinite s => rfl
  | finite s u hu => rfl

theorem larger_cases (x y : Binary64) : x.larger y = x ∨ x.larger y = y := by
  unfold larger
  split
  . exact Or.inr rfl
  . exact Or.inl rfl

theorem units_larger (hx : isFinite x = true) (hy : isFinite y = true) :
    (x.larger y).units = Max.max x.units y.units := by
  have h := lt_iff hx hy
  unfold larger
  by_cases hlt : x.lt y = true
  . simp only [hlt, ↓reduceIte]
    have := h.mp hlt
    omega
  . simp only [hlt, Bool.false_eq_true, ↓reduceIte]
    have : ¬ x.units < y.units := fun hunits => hlt (h.mpr hunits)
    omega

theorem max_eq_larger (hx : isFinite x = true) (hy : isFinite y = true) :
    x.max y = x.larger y := by
  simp [max, not_isNaN_of_isFinite hx, not_isNaN_of_isFinite hy]

theorem isFinite_larger (hx : isFinite x = true) (hy : isFinite y = true) :
    isFinite (x.larger y) = true := by
  cases larger_cases x y with
  | inl h => rwa [h]
  | inr h => rwa [h]

/-!
### Rounded operations
-/

theorem round_spec (h : roundUnits n d < rangeEnd) :
    isFinite (round s n d) = true ∧ units (round s n d) = signed s (roundUnits n d) := by
  unfold round
  simp [(log2_lt_iff _).mpr h, isFinite, units]

theorem round_mul_self (s : Bool) (hu : Fits u) (hd : 0 < d) : round s (u * d) d = finite s u hu := by
  unfold round
  dsimp only
  simp only [roundUnits_of_dvd hd hu.dvd, hu.log2_lt, ↓reduceDIte]

theorem add_spec (hx : isFinite x = true) (hy : isFinite y = true)
    (h : roundUnits (x.units + y.units).natAbs 1 < rangeEnd) :
    isFinite (x + y) = true ∧
      units (x + y) =
        signed (decide (x.units + y.units < 0)) (roundUnits (x.units + y.units).natAbs 1) := by
  obtain ⟨s, u, hu, rfl⟩ := exists_of_isFinite hx
  obtain ⟨t, v, hv, rfl⟩ := exists_of_isFinite hy
  change roundUnits (signed s u + signed t v).natAbs 1 < rangeEnd at h
  show isFinite (add _ _) = true ∧ units (add _ _) =
    signed (decide (signed s u + signed t v < 0)) (roundUnits (signed s u + signed t v).natAbs 1)
  simp only [add]
  split
  next hsum => simp [hsum, isFinite, units, roundUnits_zero]
  next => exact round_spec h

theorem mul_spec (hx : isFinite x = true) (hy : isFinite y = true)
    (h : roundUnits (x.magnitude * y.magnitude) unitsPerOne < rangeEnd) :
    isFinite (x * y) = true ∧
      magnitude (x * y) = roundUnits (x.magnitude * y.magnitude) unitsPerOne := by
  obtain ⟨s, u, hu, rfl⟩ := exists_of_isFinite hx
  obtain ⟨t, v, hv, rfl⟩ := exists_of_isFinite hy
  simp only [magnitude_finite] at *
  have := round_spec (s := s != t) h
  refine ⟨this.left, ?_⟩
  show (units (round (s != t) (u * v) unitsPerOne)).natAbs = _
  rw [this.right, natAbs_signed]

theorem div_spec (hx : isFinite x = true) (hy : isFinite y = true) (hzero : y.magnitude ≠ 0)
    (h : roundUnits (x.magnitude * unitsPerOne) y.magnitude < rangeEnd) :
    isFinite (x / y) = true ∧
      magnitude (x / y) = roundUnits (x.magnitude * unitsPerOne) y.magnitude := by
  obtain ⟨s, u, hu, rfl⟩ := exists_of_isFinite hx
  obtain ⟨t, v, hv, rfl⟩ := exists_of_isFinite hy
  simp only [magnitude_finite] at *
  have := round_spec (s := s != t) h
  show isFinite (div _ _) = true ∧ (units (div _ _)).natAbs = _
  simp only [div, hzero, ↓reduceIte, this, natAbs_signed, and_self]

theorem scale_spec (hx : isFinite x = true)
    (h : roundUnits (x.magnitude * 2 ^ k.toNat) (2 ^ (-k).toNat) < rangeEnd) :
    isFinite (x.scale k) = true ∧
      magnitude (x.scale k) = roundUnits (x.magnitude * 2 ^ k.toNat) (2 ^ (-k).toNat) := by
  obtain ⟨s, u, hu, rfl⟩ := exists_of_isFinite hx
  simp only [magnitude_finite] at *
  have := round_spec (s := s) h
  refine ⟨this.left, ?_⟩
  show (units (round s _ _)).natAbs = _
  rw [this.right, natAbs_signed]

end RowSweep.Binary64
