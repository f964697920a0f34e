import RowSweep.Proofs.Binary64.Value

/-!
This module contains values that are a power of two apart. Rounding and comparing treat them alike, except that a
nonzero result below `2 ^ -1022` has fewer digits.
-/

namespace RowSweep.Binary64

attribute [local irreducible] unitsPerOne rangeEnd

/-!
### Rounding
-/

theorem log2_mul_two_pow (hn : n ≠ 0) (k : Nat) : (n * 2 ^ k).log2 = n.log2 + k := by
  have hpos := Nat.two_pow_pos k
  have hne : n * 2 ^ k ≠ 0 := Nat.mul_ne_zero hn (by omega)
  rw [Nat.log2_eq_iff hne, Nat.pow_add, Nat.add_right_comm, Nat.pow_add]
  constructor
  . exact Nat.mul_le_mul_right _ (Nat.log2_self_le hn)
  . exact Nat.mul_lt_mul_of_pos_right Nat.lt_log2_self hpos

theorem log2_mul_two_pow_div (hd : 0 < d) (h : d ≤ n) (k : Nat) : (n * 2 ^ k / d).log2 = (n / d).log2 + k := by
  have hq : n / d ≠ 0 := Nat.ne_of_gt (Nat.div_pos h hd)
  have hle : n / d * 2 ^ k ≤ n * 2 ^ k / d := by
    rw [Nat.le_div_iff_mul_le hd, Nat.mul_right_comm]
    exact Nat.mul_le_mul_right _ (Nat.div_mul_le_self n d)
  have hlt : n * 2 ^ k / d < (n / d + 1) * 2 ^ k := by
    rw [Nat.div_lt_iff_lt_mul hd, Nat.mul_right_comm]
    apply Nat.mul_lt_mul_of_pos_right _ (Nat.two_pow_pos k)
    rw [Nat.mul_comm]
    exact Nat.lt_mul_div_succ n hd
  have hne : n * 2 ^ k / d ≠ 0 := by
    have := Nat.mul_pos (Nat.pos_of_ne_zero hq) (Nat.two_pow_pos k)
    omega
  rw [Nat.log2_eq_iff hne]
  constructor
  . rw [Nat.pow_add]
    exact Nat.le_trans (Nat.mul_le_mul_right _ (Nat.log2_self_le hq)) hle
  . rw [Nat.add_right_comm, Nat.pow_add]
    exact Nat.lt_of_lt_of_le hlt (Nat.mul_le_mul_right _ Nat.lt_log2_self)

theorem roundUnits_mul_two_pow (hd : 0 < d) (h : 2 ^ 52 * d ≤ n) (k : Nat) :
    roundUnits (n * 2 ^ k) d = roundUnits n d * 2 ^ k := by
  have hq : 2 ^ 52 ≤ n / d := (Nat.le_div_iff_mul_le hd).mpr h
  have hdigits : 52 ≤ (n / d).log2 := (Nat.le_log2 (by omega)).mpr hq
  have hspare : spareBits (n * 2 ^ k / d) = spareBits (n / d) + k := by
    unfold spareBits
    rw [log2_mul_two_pow_div hd (by omega)]
    omega
  unfold roundUnits
  dsimp only
  rw [hspare, Nat.pow_add, ← Nat.mul_assoc d, nearest_mul_mul (Nat.two_pow_pos k), Nat.mul_assoc]

theorem roundUnits_one_mul_two_pow (n k : Nat) : roundUnits (n * 2 ^ k) 1 = roundUnits n 1 * 2 ^ k := by
  by_cases h : 2 ^ 52 ≤ n
  . exact roundUnits_mul_two_pow (by decide) (by omega) k
  . have hgrid := spareBits_dvd_mul_two_pow (m := n) (by omega)
    rw [roundUnits_one_of_dvd (hgrid k), roundUnits_one_of_dvd (by simpa using hgrid 0)]

def roundInt (z : Int) (d : Nat) : Int :=
  z.sign * roundUnits z.natAbs d

theorem roundInt_neg (z : Int) (d : Nat) : roundInt (-z) d = -roundInt z d := by
  simp [roundInt]

variable {z z' : Int} {d d' : Nat}

theorem roundInt_one_of_dvd (h : 2 ^ spareBits z.natAbs ∣ z.natAbs) : roundInt z 1 = z := by
  unfold roundInt
  rw [roundUnits_one_of_dvd h, Int.sign_mul_natAbs]

theorem two_zpow_eq_div (e : Int) : (2 : ℚ) ^ e = 2 ^ e.toNat / 2 ^ (-e).toNat := by
  have he : e = (e.toNat : Int) - (-e).toNat := by omega
  conv_lhs => rw [he]
  rw [zpow_sub₀ two_ne_zero, zpow_natCast, zpow_natCast]

theorem eq_mul_zpow_iff {a b : ℚ} (e : Int) :
    a = b * 2 ^ e ↔ a * 2 ^ (-e).toNat = b * 2 ^ e.toNat := by
  rw [two_zpow_eq_div, ← mul_div_assoc, eq_div_iff (pow_ne_zero _ two_ne_zero)]

theorem cast_mul_two_pow_div (z e : Int) :
    ((z * 2 ^ e.toNat : Int) / (2 ^ (-e).toNat : Nat) : ℚ) = z * 2 ^ e := by
  rw [two_zpow_eq_div, ← mul_div_assoc]
  push_cast
  rfl

theorem sign_eq_of_eq_mul {p : ℚ} (hp : 0 < p) (h : (z' : ℚ) = z * p) : z'.sign = z.sign := by
  rcases lt_trichotomy z 0 with hz | rfl | hz
  . have hlt : (z' : ℚ) < 0 := h ▸ mul_neg_of_neg_of_pos (Int.cast_lt_zero.mpr hz) hp
    rw [Int.sign_eq_neg_one_of_neg hz, Int.sign_eq_neg_one_of_neg (Int.cast_lt_zero.mp hlt)]
  . rw [Int.cast_zero, zero_mul, Int.cast_eq_zero] at h
    rw [h]
  . have hlt : (0 : ℚ) < z' := h ▸ mul_pos (Int.cast_pos.mpr hz) hp
    rw [Int.sign_eq_one_of_pos hz, Int.sign_eq_one_of_pos (Int.cast_pos.mp hlt)]

theorem natAbs_eq_of_eq_mul {p : ℚ} (hp : 0 < p) (h : (z' : ℚ) = z * p) :
    (z'.natAbs : ℚ) = z.natAbs * p := by
  rw [Nat.cast_natAbs, Nat.cast_natAbs, Int.cast_abs, Int.cast_abs, h, abs_mul, abs_of_pos hp]

theorem roundInt_eq_of_roundUnits {e : Int} (hsign : z'.sign = z.sign)
    (h : (roundUnits z'.natAbs d' : ℚ) = roundUnits z.natAbs d * 2 ^ e) :
    (roundInt z' d' : ℚ) = roundInt z d * 2 ^ e := by
  unfold roundInt
  rw [hsign, Int.cast_mul, Int.cast_mul, Int.cast_natCast, Int.cast_natCast, h, mul_assoc]

theorem roundUnits_mul_eq {n n' p q : Nat} (hd : 0 < d) (hd' : 0 < d') (hn : 2 ^ 52 * d ≤ n)
    (hn' : 2 ^ 52 * d' ≤ n') (h : n' * 2 ^ p * d = n * 2 ^ q * d') :
    roundUnits n' d' * 2 ^ p = roundUnits n d * 2 ^ q := by
  rw [← roundUnits_mul_two_pow hd' hn', ← roundUnits_mul_two_pow hd hn, ← roundUnits_mul_mul hd, h,
    Nat.mul_comm d' d, roundUnits_mul_mul hd']

theorem roundInt_eq {e : Int} (hd : 0 < d) (hd' : 0 < d') (hz : z = 0 ∨ 2 ^ 52 * d ≤ z.natAbs)
    (hz' : z' = 0 ∨ 2 ^ 52 * d' ≤ z'.natAbs) (h : (z' / d' : ℚ) = z / d * 2 ^ e) :
    (roundInt z' d' : ℚ) = roundInt z d * 2 ^ e := by
  have hdq : (0 : ℚ) < d := Nat.cast_pos.mpr hd
  have hdq' : (0 : ℚ) < d' := Nat.cast_pos.mpr hd'
  have hcross : (z' : ℚ) = z * (d' / d * 2 ^ e) := by
    rw [div_eq_iff hdq'.ne'] at h
    rw [h]
    ring
  have hfactor : (0 : ℚ) < d' / d * 2 ^ e := mul_pos (div_pos hdq' hdq) (zpow_pos two_pos e)
  have hsign := sign_eq_of_eq_mul hfactor hcross
  have habs := natAbs_eq_of_eq_mul hfactor hcross
  apply roundInt_eq_of_roundUnits hsign
  by_cases hzero : z = 0
  . have hzero' : z' = 0 := Int.sign_eq_zero_iff_zero.mp (by rw [hsign, hzero]; rfl)
    simp [hzero, hzero', roundUnits_zero]
  . have hzero' : z' ≠ 0 := by
      intro hzero'
      rw [hzero', Int.sign_zero] at hsign
      exact hzero (Int.sign_eq_zero_iff_zero.mp hsign.symm)
    have hcast : (z'.natAbs * d : ℚ) = z.natAbs * d' * 2 ^ e := by
      rw [habs]
      field_simp
    rw [eq_mul_zpow_iff] at hcast ⊢
    have hnat : (z'.natAbs * 2 ^ (-e).toNat * d : ℚ) = z.natAbs * 2 ^ e.toNat * d' := by linear_combination hcast
    have hround := roundUnits_mul_eq hd hd' (hz.resolve_left hzero) (hz'.resolve_left hzero') (by exact_mod_cast hnat)
    exact_mod_cast hround

theorem roundInt_one_eq {e : Int} (h : (z' : ℚ) = z * 2 ^ e) : (roundInt z' 1 : ℚ) = roundInt z 1 * 2 ^ e := by
  have hpow : (0 : ℚ) < 2 ^ e := zpow_pos two_pos e
  apply roundInt_eq_of_roundUnits (sign_eq_of_eq_mul hpow h)
  have habs := natAbs_eq_of_eq_mul hpow h
  rw [eq_mul_zpow_iff] at habs ⊢
  have hnat : z'.natAbs * 2 ^ (-e).toNat = z.natAbs * 2 ^ e.toNat := by exact_mod_cast habs
  have hround : roundUnits z'.natAbs 1 * 2 ^ (-e).toNat = roundUnits z.natAbs 1 * 2 ^ e.toNat := by
    rw [← roundUnits_one_mul_two_pow, ← roundUnits_one_mul_two_pow, hnat]
  exact_mod_cast hround

theorem roundInt_congr (hd : 0 < d) (hd' : 0 < d') (h : (z' / d' : ℚ) = z / d) : roundInt z' d' = roundInt z d := by
  rw [div_eq_div_iff (Nat.cast_ne_zero.mpr (by omega)) (Nat.cast_ne_zero.mpr (by omega))] at h
  replace h : z' * d = z * d' := by exact_mod_cast h
  have hsign : z'.sign = z.sign := by
    have := congrArg Int.sign h
    rwa [Int.sign_mul, Int.sign_mul, Int.sign_natCast_of_ne_zero (by omega), Int.sign_natCast_of_ne_zero (by omega),
      Int.mul_one, Int.mul_one] at this
  have hnat : z'.natAbs * d = z.natAbs * d' := by
    have := congrArg Int.natAbs h
    rwa [Int.natAbs_mul, Int.natAbs_mul, Int.natAbs_natCast, Int.natAbs_natCast] at this
  unfold roundInt
  rw [hsign, roundUnits_congr hd' hd hnat]

/-!
### Operations
-/

theorem units_round (h : isFinite (round s n d) = true) : units (round s n d) = roundInt (signed s n) d := by
  have hunits : units (round s n d) = signed s (roundUnits n d) := by
    unfold round at h ⊢
    dsimp only at h ⊢
    split at h
    next hlog => simp [hlog, units]
    next hlog => cases h
  have hnat : roundInt n d = roundUnits n d := by
    by_cases hn : n = 0
    . simp [hn, roundInt, roundUnits_zero]
    . unfold roundInt
      rw [Int.sign_natCast_of_ne_zero hn, Int.one_mul, Int.natAbs_natCast]
  rw [hunits]
  cases s with
  | false => exact hnat.symm
  | true =>
    show -(roundUnits n d : Int) = roundInt (-(n : Int)) d
    rw [roundInt_neg, hnat]

variable {x y x' y' : Binary64}

theorem units_add (hx : x.isFinite = true) (hy : y.isFinite = true) (hxy : (x + y).isFinite = true) :
    (x + y).units = roundInt (x.units + y.units) 1 := by
  obtain ⟨s, u, hu, rfl⟩ := exists_of_isFinite hx
  obtain ⟨t, v, hv, rfl⟩ := exists_of_isFinite hy
  change isFinite (add _ _) = true at hxy
  show units (add _ _) = roundInt (signed s u + signed t v) 1
  simp only [add] at hxy ⊢
  split
  next hsum =>
    rw [hsum]
    simp [units, roundInt]
  next hsum =>
    rw [if_neg hsum] at hxy
    rw [units_round hxy, signed_lt_zero_natAbs]

theorem units_mul (hx : x.isFinite = true) (hy : y.isFinite = true) (hxy : (x * y).isFinite = true) :
    (x * y).units = roundInt (x.units * y.units) unitsPerOne := by
  obtain ⟨s, u, hu, rfl⟩ := exists_of_isFinite hx
  obtain ⟨t, v, hv, rfl⟩ := exists_of_isFinite hy
  change isFinite (round (s != t) (u * v) unitsPerOne) = true at hxy
  show units (round (s != t) (u * v) unitsPerOne) = roundInt (signed s u * signed t v) unitsPerOne
  rw [units_round hxy, signed_bne_mul]

theorem units_div (hx : x.isFinite = true) (hy : y.isFinite = true) (hzero : y.magnitude ≠ 0)
    (hxy : (x / y).isFinite = true) :
    (x / y).units = roundInt (x.units * unitsPerOne * y.units.sign) y.magnitude := by
  obtain ⟨s, u, hu, rfl⟩ := exists_of_isFinite hx
  obtain ⟨t, v, hv, rfl⟩ := exists_of_isFinite hy
  rw [magnitude_finite] at hzero ⊢
  have hdiv : (finite s u hu / finite t v hv : Binary64) = round (s != t) (u * unitsPerOne) v := by
    show div _ _ = _
    simp [div, hzero]
  have hsign : signed (s != t) (u * unitsPerOne) = signed s u * unitsPerOne * (signed t v).sign := by
    have hsign := Int.sign_natCast_of_ne_zero hzero
    cases s <;> cases t <;> simp [signed, hsign]
  rw [hdiv] at hxy ⊢
  rw [units_round hxy, hsign]
  rfl

theorem units_scale (hx : x.isFinite = true) (k : Int) (hxk : (x.scale k).isFinite = true) :
    (x.scale k).units = roundInt (x.units * 2 ^ k.toNat) (2 ^ (-k).toNat) := by
  obtain ⟨s, u, hu, rfl⟩ := exists_of_isFinite hx
  change isFinite (round s _ _) = true at hxk
  show units (round s _ _) = roundInt (signed s u * 2 ^ k.toNat) (2 ^ (-k).toNat)
  rw [units_round hxk]
  congr 1
  cases s <;> simp [signed]

structure Shifted (e : Int) (x y : Binary64) : Prop where
  left : x.isFinite = true
  right : y.isFinite = true
  units_eq : (y.units : ℚ) = x.units * 2 ^ e

def IsNormalProduct (x y : Binary64) : Prop :=
  x.magnitude * y.magnitude = 0 ∨ 2 ^ 52 * unitsPerOne ≤ x.magnitude * y.magnitude

instance (x y : Binary64) : Decidable (x.IsNormalProduct y) :=
  inferInstanceAs (Decidable (_ ∨ _))

namespace Shifted

variable {e f : Int} {x x' y y' : Binary64}

theorem refl (h : x.isFinite = true) : Shifted 0 x x :=
  ⟨h, h, by rw [zpow_zero, mul_one]⟩

theorem symm (h : Shifted e x x') : Shifted (-e) x' x := by
  refine ⟨h.right, h.left, ?_⟩
  rw [h.units_eq, mul_assoc, ← zpow_add₀ two_ne_zero, add_neg_cancel, zpow_zero, mul_one]

theorem trans {z : Binary64} (h : Shifted e x y) (h' : Shifted f y z) : Shifted (e + f) x z := by
  refine ⟨h.left, h'.right, ?_⟩
  rw [h'.units_eq, h.units_eq, mul_assoc, zpow_add₀ two_ne_zero]

theorem sign_eq (h : Shifted e x x') : x'.units.sign = x.units.sign :=
  sign_eq_of_eq_mul (zpow_pos two_pos e) h.units_eq

theorem magnitude_eq (h : Shifted e x x') : (x'.magnitude : ℚ) = x.magnitude * 2 ^ e :=
  natAbs_eq_of_eq_mul (zpow_pos two_pos e) h.units_eq

theorem magnitude_eq_zero_iff (h : Shifted e x x') : x'.magnitude = 0 ↔ x.magnitude = 0 := by
  rw [magnitude_eq_zero, magnitude_eq_zero, ← Int.sign_eq_zero_iff_zero, h.sign_eq, Int.sign_eq_zero_iff_zero]

theorem log2_eq (h : Shifted e x x') (hzero : x.magnitude ≠ 0) :
    (x'.magnitude.log2 : Int) = x.magnitude.log2 + e := by
  have heq := h.magnitude_eq
  rw [eq_mul_zpow_iff] at heq
  have hnat : x'.magnitude * 2 ^ (-e).toNat = x.magnitude * 2 ^ e.toNat := by exact_mod_cast heq
  have hlog := congrArg Nat.log2 hnat
  rw [log2_mul_two_pow (mt h.magnitude_eq_zero_iff.mp hzero), log2_mul_two_pow hzero] at hlog
  omega

theorem isZero_eq (h : Shifted e x x') : x'.isZero = x.isZero := by
  rw [Bool.eq_iff_iff, isZero_iff_magnitude h.right, isZero_iff_magnitude h.left, h.magnitude_eq_zero_iff]

theorem isPositive_eq (h : Shifted e x x') : x'.isPositive = x.isPositive := by
  rw [Bool.eq_iff_iff, isPositive_iff h.right, isPositive_iff h.left, ← Int.sign_eq_one_iff_pos,
    ← Int.sign_eq_one_iff_pos, h.sign_eq]

theorem neg (h : Shifted e x x') : Shifted e (-x) (-x') := by
  refine ⟨by rw [isFinite_neg, h.left], by rw [isFinite_neg, h.right], ?_⟩
  rw [units_neg, units_neg, Int.cast_neg, Int.cast_neg, h.units_eq, neg_mul]

theorem abs (h : Shifted e x x') : Shifted e x.abs x'.abs := by
  refine ⟨by rw [isFinite_abs, h.left], by rw [isFinite_abs, h.right], ?_⟩
  rw [units_abs, units_abs, Int.cast_natCast, Int.cast_natCast, h.magnitude_eq]

theorem le_eq (hx : Shifted e x x') (hy : Shifted e y y') : x'.le y' = x.le y := by
  rw [Bool.eq_iff_iff, le_iff hx.right hy.right, le_iff hx.left hy.left, ← Int.cast_le (R := ℚ), hx.units_eq,
    hy.units_eq, mul_le_mul_iff_left₀ (zpow_pos two_pos e), Int.cast_le]

theorem lt_eq (hx : Shifted e x x') (hy : Shifted e y y') : x'.lt y' = x.lt y := by
  rw [Bool.eq_iff_iff, lt_iff hx.right hy.right, lt_iff hx.left hy.left, ← Int.cast_lt (R := ℚ), hx.units_eq,
    hy.units_eq, mul_lt_mul_iff_left₀ (zpow_pos two_pos e), Int.cast_lt]

theorem larger (hx : Shifted e x x') (hy : Shifted e y y') : Shifted e (x.larger y) (x'.larger y') := by
  unfold Binary64.larger
  rw [hx.lt_eq hy]
  split
  . exact hy
  . exact hx

theorem max (hx : Shifted e x x') (hy : Shifted e y y') : Shifted e (x.max y) (x'.max y') := by
  rw [max_eq_larger hx.left hy.left, max_eq_larger hx.right hy.right]
  exact hx.larger hy

theorem add (hx : Shifted e x x') (hy : Shifted e y y') (h : (x + y).isFinite = true)
    (h' : (x' + y').isFinite = true) : Shifted e (x + y) (x' + y') := by
  refine ⟨h, h', ?_⟩
  rw [units_add hx.left hy.left h, units_add hx.right hy.right h']
  apply roundInt_one_eq
  rw [Int.cast_add, Int.cast_add, hx.units_eq, hy.units_eq, add_mul]

theorem mul (hx : Shifted e x x') (hy : Shifted f y y') (hnormal : x.IsNormalProduct y)
    (hnormal' : x'.IsNormalProduct y') (h : (x * y).isFinite = true) (h' : (x' * y').isFinite = true) :
    Shifted (e + f) (x * y) (x' * y') := by
  refine ⟨h, h', ?_⟩
  rw [units_mul hx.left hy.left h, units_mul hx.right hy.right h']
  have hrange : ∀ {x y : Binary64}, x.IsNormalProduct y →
      x.units * y.units = 0 ∨ 2 ^ 52 * unitsPerOne ≤ (x.units * y.units).natAbs := by
    intro x y hnormal
    rw [Int.natAbs_mul, ← Int.natAbs_eq_zero, Int.natAbs_mul]
    exact hnormal
  apply roundInt_eq unitsPerOne_pos unitsPerOne_pos (hrange hnormal) (hrange hnormal')
  rw [Int.cast_mul, Int.cast_mul, hx.units_eq, hy.units_eq, zpow_add₀ two_ne_zero]
  ring

theorem div (hx : Shifted e x x') (hy : Shifted f y y') (hzero : y.magnitude ≠ 0)
    (hnormal : 2 ^ 52 * y.magnitude ≤ x.magnitude * unitsPerOne)
    (hnormal' : 2 ^ 52 * y'.magnitude ≤ x'.magnitude * unitsPerOne) (h : (x / y).isFinite = true)
    (h' : (x' / y').isFinite = true) : Shifted (e - f) (x / y) (x' / y') := by
  have hzero' : y'.magnitude ≠ 0 := by rwa [ne_eq, hy.magnitude_eq_zero_iff]
  refine ⟨h, h', ?_⟩
  rw [units_div hx.left hy.left hzero h, units_div hx.right hy.right hzero' h', hy.sign_eq]
  have hsign : y.units.sign.natAbs = 1 := Int.natAbs_sign_of_ne_zero (by rwa [ne_eq, ← magnitude_eq_zero])
  have hrange : ∀ {x y' : Binary64}, 2 ^ 52 * y'.magnitude ≤ x.magnitude * unitsPerOne →
      2 ^ 52 * y'.magnitude ≤ (x.units * unitsPerOne * y.units.sign).natAbs := by
    intro x y' hnormal
    rw [Int.natAbs_mul, Int.natAbs_mul, Int.natAbs_natCast, hsign, Nat.mul_one]
    exact hnormal
  apply roundInt_eq (Nat.pos_of_ne_zero hzero) (Nat.pos_of_ne_zero hzero') (Or.inr (hrange hnormal))
    (Or.inr (hrange hnormal'))
  have hy0 : (y.magnitude : ℚ) ≠ 0 := Nat.cast_ne_zero.mpr hzero
  have hpow : (2 : ℚ) ^ f ≠ 0 := zpow_ne_zero f two_ne_zero
  rw [Int.cast_mul, Int.cast_mul, Int.cast_mul, Int.cast_mul, hx.units_eq, hy.magnitude_eq, zpow_sub₀ two_ne_zero]
  field_simp

end Shifted

theorem shifted_scale {x : Binary64} {k : Int} (hx : x.isFinite = true)
    (hnormal : x.magnitude = 0 ∨ 2 ^ 52 ≤ x.magnitude)
    (hnormal' : x.magnitude = 0 ∨ 2 ^ 52 * 2 ^ (-k).toNat ≤ x.magnitude * 2 ^ k.toNat)
    (hxk : (x.scale k).isFinite = true) : Shifted k x (x.scale k) := by
  refine ⟨hx, hxk, ?_⟩
  have hround : (roundInt (x.units * 2 ^ k.toNat) (2 ^ (-k).toNat) : ℚ) = roundInt x.units 1 * 2 ^ k := by
    apply roundInt_eq (by decide) (Nat.two_pow_pos _)
    . rwa [Nat.mul_one, ← magnitude_eq_zero]
    . rwa [Int.natAbs_mul, Int.natAbs_pow, Int.mul_eq_zero, or_iff_left (pow_ne_zero _ two_ne_zero),
        ← magnitude_eq_zero]
    . rw [Nat.cast_one, div_one, cast_mul_two_pow_div]
  rw [units_scale hx k hxk, hround, roundInt_one_of_dvd (spareBits_dvd_magnitude x)]

def IsPowerApart (x y : Binary64) : Prop :=
  x.magnitude * 2 ^ y.magnitude.log2 = y.magnitude * 2 ^ x.magnitude.log2

instance (x y : Binary64) : Decidable (x.IsPowerApart y) :=
  inferInstanceAs (Decidable (_ = _))

theorem IsPowerApart.symm {x y : Binary64} (h : x.IsPowerApart y) : y.IsPowerApart x :=
  Eq.symm h

theorem IsPowerApart.exists_eq {x y : Binary64} (h : x.IsPowerApart y) :
    ∃ e : Int, (y.magnitude : ℚ) = x.magnitude * 2 ^ e := by
  refine ⟨y.magnitude.log2 - x.magnitude.log2, ?_⟩
  rw [zpow_sub₀ two_ne_zero, zpow_natCast, zpow_natCast, ← mul_div_assoc, eq_div_iff (pow_ne_zero _ two_ne_zero)]
  exact_mod_cast h.symm

theorem Shifted.isPowerApart {x y : Binary64} {e : Int} (h : Shifted e x y) (hx : x.magnitude ≠ 0) :
    x.IsPowerApart y := by
  have hcast : (x.magnitude * 2 ^ y.magnitude.log2 : ℚ) = y.magnitude * 2 ^ x.magnitude.log2 := by
    rw [h.magnitude_eq, ← zpow_natCast, ← zpow_natCast, h.log2_eq hx, zpow_add₀ two_ne_zero]
    ring
  unfold IsPowerApart
  exact_mod_cast hcast

theorem isPowerApart_twoPow {i j : Int} (hi : -1074 ≤ i ∧ i < 1024) (hj : -1074 ≤ j ∧ j < 1024) :
    (twoPow i).IsPowerApart (twoPow j) := by
  unfold IsPowerApart
  rw [(twoPow_spec hi.left hi.right).right, (twoPow_spec hj.left hj.right).right, Nat.log2_two_pow, Nat.log2_two_pow,
    Nat.mul_comm]

end RowSweep.Binary64
