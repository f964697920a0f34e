import RowSweep.Multipliers
import RowSweep.Proofs.Binary64.Units

/-!
This module contains bounds on the magnitude of rounded results and the way zeros pass through the
operations.
-/

namespace RowSweep.Binary64

attribute [local irreducible] unitsPerOne rangeEnd

structure Within (M : Nat) (x : Binary64) : Prop where
  isFinite : x.isFinite = true
  magnitude_le : x.magnitude ≤ M

theorem lt_rangeEnd_of_fits (h : Fits M) : M < rangeEnd :=
  (log2_lt_iff M).mp h.log2_lt

theorem fits_of_dvd (hg : 2 ^ spareBits M ∣ M) (hr : M < rangeEnd) : Fits M :=
  ⟨hg, (log2_lt_iff M).mpr hr⟩

theorem two_pow_lt_rangeEnd (h : k < 2098) : 2 ^ k < rangeEnd := by
  obtain ⟨e, he⟩ : ∃ e, e = 2098 := ⟨_, rfl⟩
  rw [rangeEnd_eq he]
  exact Nat.pow_lt_pow_right (by decide) (by omega)

theorem fits_two_pow (h : k < 2098) : Fits (2 ^ k) :=
  fits_of_dvd (spareBits_dvd_two_pow k) (two_pow_lt_rangeEnd h)

theorem fits_unitsPerOne : Fits unitsPerOne := by
  obtain ⟨e, he⟩ : ∃ e, e = 1074 := ⟨_, rfl⟩
  rw [unitsPerOne_eq he]
  exact fits_two_pow (by omega)

theorem fits_magnitude (x : Binary64) : Fits x.magnitude :=
  fits_of_dvd (spareBits_dvd_magnitude x) (magnitude_lt_rangeEnd x)

theorem fits_mul_unitsPerOne (h : i ≤ 2 ^ 53) : Fits (i * unitsPerOne) := by
  obtain ⟨e, he⟩ : ∃ e, e = 1074 := ⟨_, rfl⟩
  rw [unitsPerOne_eq he]
  apply fits_of_dvd
  . exact spareBits_dvd_mul_two_pow h e
  . have hpow : 2 ^ 53 * 2 ^ e < rangeEnd := by
      rw [← Nat.pow_add]
      exact two_pow_lt_rangeEnd (by omega)
    exact Nat.lt_of_le_of_lt (Nat.mul_le_mul_right _ h) hpow

theorem Within.mono (h : Within M x) (hle : M ≤ K) : Within K x :=
  ⟨h.isFinite, Nat.le_trans h.magnitude_le hle⟩

theorem within_self (h : isFinite x = true) : Within x.magnitude x :=
  ⟨h, Nat.le_refl _⟩

theorem Within.abs (h : Within M x) : Within M x.abs := by
  constructor
  . simp [h.isFinite]
  . simp [h.magnitude_le]

theorem within_zero (M : Nat) : Within M zero :=
  ⟨rfl, Nat.zero_le M⟩

/-!
### Bounds of results
-/

theorem within_add (hM : Fits M) (hx : isFinite x = true) (hy : isFinite y = true)
    (h : x.magnitude + y.magnitude ≤ M) : Within M (x + y) := by
  have hsum : (x.units + y.units).natAbs ≤ M * 1 := by
    unfold magnitude at h
    omega
  have hround := roundUnits_le (by decide) hM.dvd hsum
  have := add_spec hx hy (Nat.lt_of_le_of_lt hround (lt_rangeEnd_of_fits hM))
  refine ⟨this.left, ?_⟩
  rw [magnitude, this.right, natAbs_signed]
  exact hround

theorem within_mul (hM : Fits M) (hx : isFinite x = true) (hy : isFinite y = true)
    (h : x.magnitude * y.magnitude ≤ M * unitsPerOne) : Within M (x * y) := by
  have hround := roundUnits_le unitsPerOne_pos hM.dvd h
  have := mul_spec hx hy (Nat.lt_of_le_of_lt hround (lt_rangeEnd_of_fits hM))
  refine ⟨this.left, ?_⟩
  rw [this.right]
  exact hround

theorem Within.mul_of_le_one (hM : Fits M) (hx : Within M x) (hy : Within unitsPerOne y) :
    Within M (x * y) :=
  within_mul hM hx.isFinite hy.isFinite (Nat.mul_le_mul hx.magnitude_le hy.magnitude_le)

theorem within_div (hM : Fits M) (hx : isFinite x = true) (hy : isFinite y = true)
    (hzero : y.magnitude ≠ 0) (h : x.magnitude * unitsPerOne ≤ M * y.magnitude) :
    Within M (x / y) := by
  have hround := roundUnits_le (Nat.pos_of_ne_zero hzero) hM.dvd h
  have := div_spec hx hy hzero (Nat.lt_of_le_of_lt hround (lt_rangeEnd_of_fits hM))
  refine ⟨this.left, ?_⟩
  rw [this.right]
  exact hround

theorem within_scale (hM : Fits M) (hx : isFinite x = true)
    (h : x.magnitude * 2 ^ k.toNat ≤ M * 2 ^ (-k).toNat) :
    Within M (x.scale k) ∧
      magnitude (x.scale k) = roundUnits (x.magnitude * 2 ^ k.toNat) (2 ^ (-k).toNat) := by
  have hround := roundUnits_le (Nat.two_pow_pos _) hM.dvd h
  have := scale_spec hx (Nat.lt_of_le_of_lt hround (lt_rangeEnd_of_fits hM))
  refine ⟨⟨this.left, ?_⟩, this.right⟩
  rw [this.right]
  exact hround

theorem exponent_eq (h : isFinite x = true) : x.exponent = (x.magnitude.log2 : Int) - 1073 := by
  obtain ⟨s, u, hu, rfl⟩ := exists_of_isFinite h
  simp [exponent]

theorem exponent_le (h : isFinite x = true) (hle : x.magnitude ≤ 2 ^ 53 * unitsPerOne) : x.exponent ≤ 54 := by
  obtain ⟨e, he⟩ : ∃ e, e = 1074 := ⟨_, rfl⟩
  rw [unitsPerOne_eq he] at hle
  rw [exponent_eq h]
  by_cases hzero : x.magnitude = 0
  . simp [hzero]
  . have hlog : x.magnitude.log2 < 54 + e := by
      rw [Nat.log2_lt hzero, Nat.pow_add]
      have := Nat.two_pow_pos e
      omega
    omega

theorem within_scale_exponent (hx : isFinite x = true) (hy : isFinite y = true)
    (hle : x.magnitude ≤ y.magnitude) :
    Within unitsPerOne (x.scale (-y.exponent)) ∧
      magnitude (x.scale (-y.exponent)) =
        roundUnits (x.magnitude * 2 ^ (-y.exponent).toNat) (2 ^ (- -y.exponent).toNat) := by
  apply within_scale fits_unitsPerOne hx
  obtain ⟨e, he⟩ : ∃ e, e = 1074 := ⟨_, rfl⟩
  rw [exponent_eq hy, unitsPerOne_eq he]
  have hlog := Nat.lt_log2_self (n := y.magnitude)
  have hpow : 2 ^ (y.magnitude.log2 + 1) * 2 ^ (-((y.magnitude.log2 : Int) - 1073)).toNat =
      2 ^ e * 2 ^ (-(-((y.magnitude.log2 : Int) - 1073))).toNat := by
    rw [← Nat.pow_add, ← Nat.pow_add]
    congr 1
    omega
  calc
    x.magnitude * 2 ^ (-((y.magnitude.log2 : Int) - 1073)).toNat
      ≤ 2 ^ (y.magnitude.log2 + 1) * 2 ^ (-((y.magnitude.log2 : Int) - 1073)).toNat :=
        Nat.mul_le_mul_right _ (by omega)
    _ = 2 ^ e * 2 ^ (-(-((y.magnitude.log2 : Int) - 1073))).toNat := hpow

/-!
### Whole numbers and powers of two
-/

theorem ofNat_spec (h : i ≤ 2 ^ 53) :
    isFinite (ofNat i) = true ∧ units (ofNat i) = i * unitsPerOne := by
  have hfits := fits_mul_unitsPerOne h
  have hround := roundUnits_one_of_dvd hfits.dvd
  have := round_spec (s := false) (n := i * unitsPerOne) (d := 1)
    (by rw [hround]; exact lt_rangeEnd_of_fits hfits)
  rw [hround] at this
  refine ⟨this.left, this.right.trans ?_⟩
  simp [signed]

theorem magnitude_ofNat (h : i ≤ 2 ^ 53) : magnitude (ofNat i) = i * unitsPerOne := by
  rw [magnitude, (ofNat_spec h).right]
  omega

theorem isFinite_one : isFinite one = true :=
  (ofNat_spec (i := 1) (by decide)).left

theorem one_eq : one = ofNat 1 := by
  unfold one
  rfl

theorem units_one : units one = unitsPerOne := by
  have := (ofNat_spec (i := 1) (by decide)).right
  rwa [Int.natCast_one, Int.one_mul] at this

theorem magnitude_one : magnitude one = unitsPerOne := by
  simp [magnitude, units_one]

theorem exactLimit_eq : exactLimit = ofNat (2 ^ 53) := by
  unfold exactLimit
  congr 1

theorem isFinite_exactLimit : isFinite exactLimit = true := by
  rw [exactLimit_eq]
  exact (ofNat_spec (Nat.le_refl _)).left

theorem units_exactLimit : units exactLimit = (2 ^ 53 : Nat) * unitsPerOne := by
  rw [exactLimit_eq]
  exact (ofNat_spec (Nat.le_refl _)).right

theorem twoPow_spec (hlow : -1074 ≤ k) (hhigh : k < 1024) :
    isFinite (twoPow k) = true ∧ magnitude (twoPow k) = 2 ^ (k + 1074).toNat := by
  have hpow : one.magnitude * 2 ^ k.toNat = 2 ^ (k + 1074).toNat * 2 ^ (-k).toNat := by
    obtain ⟨e, he⟩ : ∃ e, e = 1074 := ⟨_, rfl⟩
    rw [magnitude_one, unitsPerOne_eq he, ← Nat.pow_add, ← Nat.pow_add]
    congr 1
    omega
  have hround : roundUnits (one.magnitude * 2 ^ k.toNat) (2 ^ (-k).toNat) =
      2 ^ (k + 1074).toNat := by
    rw [hpow]
    exact roundUnits_of_dvd (Nat.two_pow_pos _) (spareBits_dvd_two_pow _)
  have := scale_spec isFinite_one (k := k)
    (by rw [hround]; apply two_pow_lt_rangeEnd; omega)
  rw [hround] at this
  exact this

/-!
### Zeros
-/

theorem isZero_add (hx : isZero x = true) (hy : isZero y = true) : isZero (x + y) = true := by
  have := within_add fits_zero (isFinite_of_isZero hx) (isFinite_of_isZero hy) (by
    rw [(isZero_iff_magnitude (isFinite_of_isZero hx)).mp hx,
      (isZero_iff_magnitude (isFinite_of_isZero hy)).mp hy])
  rw [isZero_iff_magnitude this.isFinite]
  exact Nat.le_zero.mp this.magnitude_le

theorem isZero_mul_left (hx : isZero x = true) (hy : isFinite y = true) : isZero (x * y) = true := by
  have := within_mul fits_zero (isFinite_of_isZero hx) hy (by
    rw [(isZero_iff_magnitude (isFinite_of_isZero hx)).mp hx]
    simp)
  rw [isZero_iff_magnitude this.isFinite]
  exact Nat.le_zero.mp this.magnitude_le

-- A value of at least one survives being brought down by the power of two of a value of at most
-- `2 ^ 53`.
theorem isZero_scale_exponent (hx : isFinite x = true) (hy : isFinite y = true)
    (hle : x.magnitude ≤ y.magnitude) (hlow : unitsPerOne ≤ x.magnitude)
    (hhigh : y.magnitude ≤ 2 ^ 53 * unitsPerOne) : isZero (x.scale (-y.exponent)) = false := by
  obtain ⟨hwithin, hmag⟩ := within_scale_exponent hx hy hle
  cases hzero : isZero (x.scale (-y.exponent)) with
  | false => rfl
  | true =>
    obtain ⟨e, he⟩ : ∃ e, e = 1074 := ⟨_, rfl⟩
    rw [isZero_iff_magnitude hwithin.isFinite, hmag] at hzero
    rw [unitsPerOne_eq he] at hlow
    have hexponent := exponent_le hy hhigh
    have hone : 1 * 2 ^ (- -y.exponent).toNat ≤ x.magnitude * 2 ^ (-y.exponent).toNat := by
      calc
        1 * 2 ^ (- -y.exponent).toNat ≤ 2 ^ e * 1 := by
          rw [Nat.one_mul, Nat.mul_one]
          exact Nat.pow_le_pow_right (by decide) (by omega)
        _ ≤ x.magnitude * 2 ^ (-y.exponent).toNat := Nat.mul_le_mul hlow (Nat.two_pow_pos _)
    have := le_roundUnits (g := 1) (Nat.two_pow_pos _) (by decide) hone
    omega

theorem isZero_scale (hx : isZero x = true) : isZero (x.scale k) = true := by
  have := (within_scale (k := k) fits_zero (isFinite_of_isZero hx) (by
    rw [(isZero_iff_magnitude (isFinite_of_isZero hx)).mp hx]
    simp)).left
  rw [isZero_iff_magnitude this.isFinite]
  exact Nat.le_zero.mp this.magnitude_le

end RowSweep.Binary64
