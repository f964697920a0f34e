import RowSweep.Proofs.Multipliers.LowestTerms

/-!
This module contains what is left where two entries should cancel. Whole multipliers make two equal terms with
opposite signs. Scaled ones leave the smaller entry as it is and round the larger one twice, in the ratio and
in the product with it.
-/

namespace RowSweep

open Binary64

attribute [local irreducible] unitsPerOne rangeEnd

namespace Binary64

theorem IsUnsigned.eq (hx : IsUnsigned x) (hy : IsUnsigned y) (h : x.magnitude = y.magnitude) :
    x = y := by
  obtain ⟨u, hu, rfl⟩ := hx
  obtain ⟨v, hv, rfl⟩ := hy
  rw [magnitude_finite, magnitude_finite] at h
  subst h
  rfl

theorem magnitude_max (hx : IsUnsigned x) (hy : IsUnsigned y) :
    (x.max y).magnitude = Max.max x.magnitude y.magnitude := by
  have hunits := units_larger hx.isFinite hy.isFinite
  rw [hx.units_eq, hy.units_eq] at hunits
  rw [max_eq_larger hx.isFinite hy.isFinite, magnitude, hunits]
  omega

theorem mul_comm (x y : Binary64) : x * y = y * x := by
  have hsign : ∀ s t : Bool, (s != t) = (t != s) := by decide
  show mul x y = mul y x
  cases x <;> cases y <;> simp only [mul, Nat.mul_comm, hsign]

theorem isUnsigned_of_units_pos (h : 0 < units x) : IsUnsigned x := by
  cases x with
  | nan => cases h
  | infinite s => cases h
  | finite s u hu =>
    cases s with
    | false => exact ⟨u, hu, rfl⟩
    | true =>
      simp [units, signed] at h
      omega

theorem div_unsigned (hx : IsUnsigned x) (hy : IsUnsigned y) (hzero : y.magnitude ≠ 0)
    (hle : x.magnitude ≤ y.magnitude) :
    IsUnsigned (x / y) ∧ magnitude (x / y) = roundUnits (x.magnitude * unitsPerOne) y.magnitude ∧
      magnitude (x / y) ≤ unitsPerOne := by
  have hround : roundUnits (x.magnitude * unitsPerOne) y.magnitude ≤ unitsPerOne := by
    apply roundUnits_le (by omega) fits_unitsPerOne.dvd
    rw [Nat.mul_comm]
    exact Nat.mul_le_mul_left _ hle
  have hlt := Nat.lt_of_le_of_lt hround (lt_rangeEnd_of_fits fits_unitsPerOne)
  have hdiv := div_spec hx.isFinite hy.isFinite hzero hlt
  refine ⟨?_, hdiv.right, by rwa [hdiv.right]⟩
  obtain ⟨u, hu, rfl⟩ := hx
  obtain ⟨v, hv, rfl⟩ := hy
  rw [magnitude_finite] at hzero hlt
  rw [magnitude_finite] at hlt
  show IsUnsigned (div _ _)
  simp only [div, hzero, ↓reduceIte]
  cases round_unsigned (u * unitsPerOne) v with
  | inl h => exact h
  | inr h => exact absurd h.left (by omega)

theorem isUnsigned_one : IsUnsigned one := by
  rw [one_eq]
  exact isUnsigned_ofNat (by decide)

theorem div_self_of_ne_zero (hx : IsUnsigned x) (hzero : x.magnitude ≠ 0) : x / x = one := by
  obtain ⟨hdiv, hmag, -⟩ := div_unsigned hx hx hzero (Nat.le_refl _)
  apply hdiv.eq isUnsigned_one
  rw [hmag, Nat.mul_comm, roundUnits_of_dvd (Nat.pos_of_ne_zero hzero) fits_unitsPerOne.dvd, magnitude_one]

theorem mul_unsigned_of_le_one (hx : IsUnsigned x) (hy : IsUnsigned y)
    (hle : y.magnitude ≤ unitsPerOne) :
    IsUnsigned (x * y) ∧ magnitude (x * y) = roundUnits (x.magnitude * y.magnitude) unitsPerOne := by
  have hwithin := Within.mul_of_le_one (fits_magnitude x) (within_self hx.isFinite) ⟨hy.isFinite, hle⟩
  refine ⟨?_, magnitude_mul hx.isFinite hy.isFinite hwithin.isFinite⟩
  cases mul_unsigned hx hy with
  | inl h => exact h
  | inr h =>
    have hfinite := hwithin.isFinite
    rw [h] at hfinite
    cases hfinite

theorem natAbs_signed_add_not (s : Bool) (a b : Nat) :
    (signed s a + signed (!s) b).natAbs = ((a : Int) - b).natAbs := by
  cases s <;> simp [signed] <;> omega

theorem add_opposite (hx : isFinite x = true) (hy : isFinite y = true) (hxunits : x.units = signed s a)
    (hyunits : y.units = signed (!s) b) :
    isFinite (x + y) = true ∧ magnitude (x + y) = roundUnits ((a : Int) - b).natAbs 1 := by
  have ha : x.magnitude = a := by rw [magnitude, hxunits, natAbs_signed]
  have hb : y.magnitude = b := by rw [magnitude, hyunits, natAbs_signed]
  have hsum : (x.units + y.units).natAbs = ((a : Int) - b).natAbs := by
    rw [hxunits, hyunits, natAbs_signed_add_not]
  have hlt : roundUnits ((a : Int) - b).natAbs 1 < rangeEnd := by
    cases Nat.le_total a b with
    | inl hle =>
      apply Nat.lt_of_le_of_lt (roundUnits_le (by decide) (fits_magnitude y).dvd (by omega))
      exact magnitude_lt_rangeEnd y
    | inr hle =>
      apply Nat.lt_of_le_of_lt (roundUnits_le (by decide) (fits_magnitude x).dvd (by omega))
      exact magnitude_lt_rangeEnd x
  have hadd := add_spec hx hy (by rwa [hsum])
  refine ⟨hadd.left, ?_⟩
  rw [magnitude, hadd.right, natAbs_signed, hsum]

def IsComparable (x y : Binary64) : Prop :=
  x.magnitude ≤ 2 ^ 1022 * y.magnitude ∧ y.magnitude ≤ 2 ^ 1022 * x.magnitude

instance (x y : Binary64) : Decidable (x.IsComparable y) :=
  inferInstanceAs (Decidable (_ ∧ _))

theorem IsComparable.max_le {x y : Binary64} (h : x.IsComparable y) :
    Max.max x.magnitude y.magnitude ≤ 2 ^ 1022 * Min.min x.magnitude y.magnitude := by
  unfold IsComparable at h
  generalize 2 ^ 1022 = factor at *
  cases Nat.le_total x.magnitude y.magnitude with
  | inl hle =>
    rw [Nat.max_eq_right hle, Nat.min_eq_left hle]
    exact h.right
  | inr hle =>
    rw [Nat.max_eq_left hle, Nat.min_eq_right hle]
    exact h.left

theorem IsComparable.symm {x y : Binary64} (h : x.IsComparable y) : y.IsComparable x :=
  ⟨h.right, h.left⟩

end Binary64

namespace Multipliers

theorem terms_eq {k : Multipliers} {hu : Fits u} {hv : Fits v} (hu0 : u ≠ 0) (hv0 : v ≠ 0)
    (htarget : k.target = .finite false a ha) (hcopy : k.copy = .finite false b hb)
    (hsign : k.sign =
      if isPositive (.finite s u hu) == isPositive (.finite t v hv) then .minus else .plus) :
    Binary64.finite s u hu * k.target = round s (u * a) unitsPerOne ∧
      Binary64.finite t v hv * k.sign.apply k.copy = round (!s) (v * b) unitsPerOne := by
  have hu : (u != 0) = true := bne_iff_ne.mpr hu0
  have hv : (v != 0) = true := bne_iff_ne.mpr hv0
  rw [htarget, hcopy, hsign]
  constructor
  . show round (s != false) (u * a) unitsPerOne = _
    rw [Bool.bne_false]
  . simp only [isPositive, hu, hv, Bool.and_true]
    cases s <;> cases t <;> rfl

theorem roundUnits_lt_rangeEnd (h : i ≤ 2 ^ 106) :
    roundUnits (i * unitsPerOne * unitsPerOne) unitsPerOne < rangeEnd := by
  obtain ⟨e, he⟩ : ∃ e, e = 1074 := ⟨_, rfl⟩
  have hle : roundUnits (i * unitsPerOne * unitsPerOne) unitsPerOne ≤ 2 ^ (106 + e) := by
    apply roundUnits_le unitsPerOne_pos (spareBits_dvd_two_pow _)
    rw [Nat.pow_add, ← unitsPerOne_eq he]
    exact Nat.mul_le_mul_right _ (Nat.mul_le_mul_right _ h)
  exact Nat.lt_of_le_of_lt hle (two_pow_lt_rangeEnd (by omega))

theorem isZero_combineCell_integral {k : Multipliers} (hk : integral? upper lower = some k)
    (hupper : upper.isZero = false) (hlower : lower.isZero = false) :
    (k.combineCell .zero upper lower).isZero = true := by
  -- Whole multipliers give both terms the least common multiple of the entries as magnitude.
  obtain ⟨x, y, t, w, hx, hy, hterms⟩ := exists_inLowestTerms hk hupper hlower
  obtain ⟨hx, hxle⟩ := exactInteger?_eq_some.mp hx
  obtain ⟨hy, -⟩ := exactInteger?_eq_some.mp hy
  obtain ⟨⟨a, ha, htarget⟩, ⟨b, hb, hcopy⟩⟩ := isUnsigned_integral? hk
  obtain ⟨s, u, hu, rfl⟩ := exists_of_isFinite (isFinite_of_integer? hx)
  obtain ⟨s', v, hv, rfl⟩ := exists_of_isFinite (isFinite_of_integer? hy)
  have hta := magnitude_of_integer? hterms.target
  have hcb := magnitude_of_integer? hterms.copy
  have hux := magnitude_of_integer? hx
  have hvy := magnitude_of_integer? hy
  rw [htarget, magnitude_finite, Int.natAbs_natCast] at hta
  rw [hcopy, magnitude_finite, Int.natAbs_natCast] at hcb
  rw [magnitude_finite, ← hterms.copy_mul] at hux
  rw [magnitude_finite, ← hterms.target_mul] at hvy
  have hu0 : u ≠ 0 := by simpa [Binary64.isZero] using hupper
  have hv0 : v ≠ 0 := by simpa [Binary64.isZero] using hlower
  have hsign : k.sign =
      if isPositive (.finite s u hu) == isPositive (.finite s' v hv) then .minus else .plus := by
    obtain ⟨x, y, -, -, rfl⟩ := integral?_eq_some.mp hk
    rfl
  obtain ⟨hleft, hright⟩ := terms_eq hu0 hv0 htarget hcopy hsign
  have hleftUnits : u * a = t * (w * k.gcd) * unitsPerOne * unitsPerOne := by
    rw [hux, hta]
    ac_rfl
  have hrightUnits : v * b = t * (w * k.gcd) * unitsPerOne * unitsPerOne := by
    rw [hvy, hcb]
    ac_rfl
  have hbound : t * (w * k.gcd) ≤ 2 ^ 106 := by
    rw [hterms.copy_mul]
    exact Nat.le_trans (Nat.mul_le_mul hterms.target_le hxle) (by decide)
  have hlt := roundUnits_lt_rangeEnd hbound
  have hsum := add_opposite (round_spec hlt).left (round_spec hlt).left (round_spec (s := s) hlt).right
    (round_spec hlt).right
  rw [Int.sub_self, Int.natAbs_zero, roundUnits_zero] at hsum
  cases k.combineCell_cases .zero (.finite s u hu) (.finite s' v hv) with
  | inl hcell =>
    rw [hcell]
    rfl
  | inr hcell =>
    rw [hcell, hleft, hright, hleftUnits, hrightUnits, isZero_iff_magnitude hsum.left]
    exact hsum.right

/-!
### What scaled multipliers leave
-/

def smaller (upper lower : Binary64) : Binary64 :=
  if upper.abs.lt lower.abs then upper.abs else lower.abs

def rebuilt (upper lower : Binary64) : Binary64 :=
  upper.abs.larger lower.abs * (smaller upper lower / upper.abs.larger lower.abs)

def remainder (upper lower : Binary64) : Binary64 :=
  smaller upper lower - rebuilt upper lower

def Snaps (zeroSnap upper lower : Binary64) : Prop :=
  zeroSnap.isPositive = true ∧
    (remainder upper lower).abs.le (zeroSnap * (smaller upper lower).max (rebuilt upper lower)) = true

section remainder

variable {upper lower : Binary64} (hupper : upper.isFinite = true) (hlower : lower.isFinite = true)
variable (hupper0 : upper.isZero = false) (hlower0 : lower.isZero = false)

include hupper hlower

theorem isUnsigned_smaller : IsUnsigned (smaller upper lower) := by
  unfold smaller
  split
  . exact isUnsigned_abs hupper
  . exact isUnsigned_abs hlower

theorem isUnsigned_largest : IsUnsigned (upper.abs.larger lower.abs) := by
  cases larger_cases upper.abs lower.abs with
  | inl h =>
    rw [h]
    exact isUnsigned_abs hupper
  | inr h =>
    rw [h]
    exact isUnsigned_abs hlower

theorem larger_eq_left (hle : lower.magnitude ≤ upper.magnitude) : upper.abs.larger lower.abs = upper.abs := by
  apply (isUnsigned_largest hupper hlower).eq (isUnsigned_abs hupper)
  rw [magnitude_largest hupper hlower, magnitude_abs, Nat.max_eq_left hle]

theorem larger_eq_right (hle : upper.magnitude ≤ lower.magnitude) : upper.abs.larger lower.abs = lower.abs := by
  apply (isUnsigned_largest hupper hlower).eq (isUnsigned_abs hlower)
  rw [magnitude_largest hupper hlower, magnitude_abs, Nat.max_eq_right hle]

theorem magnitude_smaller :
    (smaller upper lower).magnitude = Min.min upper.magnitude lower.magnitude := by
  have h := lt_iff (x := upper.abs) (y := lower.abs) (by simpa) (by simpa)
  rw [units_abs, units_abs] at h
  unfold smaller
  split
  next hlt =>
    have := h.mp hlt
    rw [magnitude_abs]
    omega
  next hlt =>
    have hge : ¬ upper.magnitude < lower.magnitude := fun hmag => hlt (h.mpr (by omega))
    rw [magnitude_abs]
    omega

include hupper0

theorem magnitude_largest_ne_zero : (upper.abs.larger lower.abs).magnitude ≠ 0 := by
  have hne := magnitude_ne_zero hupper hupper0
  rw [magnitude_largest hupper hlower]
  omega

theorem target_scaling_spec :
    IsUnsigned (scaling upper lower).target ∧
      (scaling upper lower).target.magnitude =
        roundUnits (lower.magnitude * unitsPerOne) (Max.max upper.magnitude lower.magnitude) ∧
      (scaling upper lower).target.magnitude ≤ unitsPerOne := by
  have hdiv := div_unsigned (isUnsigned_abs hlower) (isUnsigned_largest hupper hlower)
    (magnitude_largest_ne_zero hupper hlower hupper0)
    (by rw [magnitude_abs, magnitude_largest hupper hlower]; omega)
  rwa [magnitude_abs, magnitude_largest hupper hlower] at hdiv

theorem copy_scaling_spec :
    IsUnsigned (scaling upper lower).copy ∧
      (scaling upper lower).copy.magnitude =
        roundUnits (upper.magnitude * unitsPerOne) (Max.max upper.magnitude lower.magnitude) ∧
      (scaling upper lower).copy.magnitude ≤ unitsPerOne := by
  have hdiv := div_unsigned (isUnsigned_abs hupper) (isUnsigned_largest hupper hlower)
    (magnitude_largest_ne_zero hupper hlower hupper0)
    (by rw [magnitude_abs, magnitude_largest hupper hlower]; omega)
  rwa [magnitude_abs, magnitude_largest hupper hlower] at hdiv

theorem ratio_spec :
    IsUnsigned (smaller upper lower / upper.abs.larger lower.abs) ∧
      (smaller upper lower / upper.abs.larger lower.abs).magnitude =
        roundUnits (Min.min upper.magnitude lower.magnitude * unitsPerOne)
          (Max.max upper.magnitude lower.magnitude) ∧
      (smaller upper lower / upper.abs.larger lower.abs).magnitude ≤ unitsPerOne := by
  have hdiv := div_unsigned (isUnsigned_smaller hupper hlower) (isUnsigned_largest hupper hlower)
    (magnitude_largest_ne_zero hupper hlower hupper0)
    (by rw [magnitude_smaller hupper hlower, magnitude_largest hupper hlower]; omega)
  rwa [magnitude_smaller hupper hlower, magnitude_largest hupper hlower] at hdiv

theorem rebuilt_spec :
    IsUnsigned (rebuilt upper lower) ∧
      (rebuilt upper lower).magnitude =
        roundUnits (Max.max upper.magnitude lower.magnitude *
          roundUnits (Min.min upper.magnitude lower.magnitude * unitsPerOne)
            (Max.max upper.magnitude lower.magnitude)) unitsPerOne := by
  obtain ⟨hratio, hmag, hle⟩ := ratio_spec hupper hlower hupper0
  have hmul := mul_unsigned_of_le_one (isUnsigned_largest hupper hlower) hratio hle
  rw [magnitude_largest hupper hlower, hmag] at hmul
  exact ⟨hmul.left, hmul.right⟩

include hlower0

theorem terms_scaling :
    ∃ s n n', upper * (scaling upper lower).target = round s n unitsPerOne ∧
      lower * (scaling upper lower).sign.apply (scaling upper lower).copy = round (!s) n' unitsPerOne ∧
        ((roundUnits n unitsPerOne = (smaller upper lower).magnitude ∧
            roundUnits n' unitsPerOne = (rebuilt upper lower).magnitude) ∨
          (roundUnits n unitsPerOne = (rebuilt upper lower).magnitude ∧
            roundUnits n' unitsPerOne = (smaller upper lower).magnitude)) := by
  -- One of the two terms has the smaller magnitude, the other one the rebuilt magnitude, and the signs
  -- differ.
  obtain ⟨⟨a, ha, htarget⟩, hamag, -⟩ := target_scaling_spec hupper hlower hupper0
  obtain ⟨⟨b, hb, hcopy⟩, hbmag, -⟩ := copy_scaling_spec hupper hlower hupper0
  rw [htarget, magnitude_finite] at hamag
  rw [hcopy, magnitude_finite] at hbmag
  rw [magnitude_smaller hupper hlower, (rebuilt_spec hupper hlower hupper0).right]
  obtain ⟨s, u, hu, rfl⟩ := exists_of_isFinite hupper
  obtain ⟨t, v, hv, rfl⟩ := exists_of_isFinite hlower
  have hu0 : u ≠ 0 := by simpa [Binary64.isZero] using hupper0
  have hv0 : v ≠ 0 := by simpa [Binary64.isZero] using hlower0
  obtain ⟨hleft, hright⟩ := terms_eq (k := scaling (.finite s u hu) (.finite t v hv)) hu0 hv0
    htarget hcopy rfl
  refine ⟨s, u * a, v * b, hleft, hright, ?_⟩
  simp only [magnitude_finite] at *
  cases Nat.lt_or_ge u v with
  | inl hlt =>
    rw [Nat.max_eq_right (Nat.le_of_lt hlt)] at *
    rw [Nat.min_eq_left (Nat.le_of_lt hlt)]
    rw [Nat.mul_comm v, roundUnits_of_dvd (by omega) fits_unitsPerOne.dvd] at hamag
    refine Or.inl ⟨?_, by rw [hbmag]⟩
    rw [hamag]
    exact roundUnits_of_dvd unitsPerOne_pos hu.dvd
  | inr hge =>
    rw [Nat.max_eq_left hge] at *
    rw [Nat.min_eq_right hge]
    rw [Nat.mul_comm u, roundUnits_of_dvd (by omega) fits_unitsPerOne.dvd] at hbmag
    refine Or.inr ⟨by rw [hamag], ?_⟩
    rw [hbmag]
    exact roundUnits_of_dvd unitsPerOne_pos hv.dvd

omit hlower0

theorem remainder_spec :
    (remainder upper lower).isFinite = true ∧
      (remainder upper lower).magnitude =
        roundUnits (((smaller upper lower).magnitude : Int) - (rebuilt upper lower).magnitude).natAbs 1 := by
  have hsmaller := isUnsigned_smaller hupper hlower
  have hrebuilt := (rebuilt_spec hupper hlower hupper0).left
  apply add_opposite (s := false) (x := smaller upper lower) (y := -rebuilt upper lower) hsmaller.isFinite
  . simpa using hrebuilt.isFinite
  . rw [hsmaller.units_eq]
    rfl
  . rw [units_neg, hrebuilt.units_eq]
    rfl

include hlower0

theorem combineCell_scaling (zeroSnap : Binary64) :
    (Snaps zeroSnap upper lower ∧ (scaling upper lower).combineCell zeroSnap upper lower = .zero) ∨
      (¬ Snaps zeroSnap upper lower ∧
        ((scaling upper lower).combineCell zeroSnap upper lower).isFinite = true ∧
        ((scaling upper lower).combineCell zeroSnap upper lower).magnitude =
          (remainder upper lower).magnitude) := by
  -- Scaled multipliers leave the remainder, or nothing if it is noise.
  obtain ⟨s, n, n', hleft, hright, hterms⟩ := terms_scaling hupper hlower hupper0 hlower0
  have hsmaller := isUnsigned_smaller hupper hlower
  have hrebuilt := (rebuilt_spec hupper hlower hupper0).left
  obtain ⟨hrem, hremmag⟩ := remainder_spec hupper hlower hupper0
  have hn : roundUnits n unitsPerOne < rangeEnd ∧ roundUnits n' unitsPerOne < rangeEnd := by
    have := magnitude_lt_rangeEnd (smaller upper lower)
    have := magnitude_lt_rangeEnd (rebuilt upper lower)
    omega
  obtain ⟨hu, huunits⟩ := round_spec (s := s) hn.left
  obtain ⟨hw, hwunits⟩ := round_spec (s := !s) hn.right
  obtain ⟨hsum, hsummag⟩ := add_opposite hu hw huunits hwunits
  have humag : (round s n unitsPerOne).magnitude = roundUnits n unitsPerOne := by
    rw [magnitude, huunits, natAbs_signed]
  have hwmag : (round (!s) n' unitsPerOne).magnitude = roundUnits n' unitsPerOne := by
    rw [magnitude, hwunits, natAbs_signed]
  have hmag : (round s n unitsPerOne + round (!s) n' unitsPerOne).magnitude =
      (remainder upper lower).magnitude := by
    rw [hsummag, hremmag]
    congr 1
    omega
  have habs : (round s n unitsPerOne + round (!s) n' unitsPerOne).abs = (remainder upper lower).abs := by
    apply (isUnsigned_abs hsum).eq (isUnsigned_abs hrem)
    rw [magnitude_abs, magnitude_abs, hmag]
  have hmax : (round s n unitsPerOne).abs.max (round (!s) n' unitsPerOne).abs =
      (smaller upper lower).max (rebuilt upper lower) := by
    apply (isUnsigned_max (isUnsigned_abs hu) (isUnsigned_abs hw)).eq (isUnsigned_max hsmaller hrebuilt)
    rw [magnitude_max (isUnsigned_abs hu) (isUnsigned_abs hw), magnitude_max hsmaller hrebuilt,
      magnitude_abs, magnitude_abs, humag, hwmag]
    omega
  unfold combineCell
  dsimp only
  rw [hleft, hright, habs, hmax]
  split
  next hsnap =>
    rw [Bool.and_eq_true] at hsnap
    exact Or.inl ⟨hsnap, rfl⟩
  next hsnap =>
    rw [Bool.and_eq_true] at hsnap
    exact Or.inr ⟨hsnap, hsum, hmag⟩

omit hlower0

theorem snaps_or_isZero_remainder {zeroSnap : Binary64} (hlow : (twoPow (-52)).le zeroSnap = true)
    (hhigh : zeroSnap.lt .one = true) (hfinite : zeroSnap.isFinite = true)
    (hratio : Max.max upper.magnitude lower.magnitude ≤ 2 ^ 1022 * Min.min upper.magnitude lower.magnitude) :
    Snaps zeroSnap upper lower ∨ (remainder upper lower).isZero = true := by
  -- From `2 ^ -52` on the snap takes every remainder, unless the ratio of the entries is subnormal.
  have hlarge := magnitude_largest_ne_zero hupper hlower hupper0
  rw [magnitude_largest hupper hlower] at hlarge
  have hsmaller := isUnsigned_smaller hupper hlower
  have hsmall := magnitude_smaller hupper hlower
  obtain ⟨hrebuilt, hrebuiltmag⟩ := rebuilt_spec hupper hlower hupper0
  obtain ⟨hrem, hremmag⟩ := remainder_spec hupper hlower hupper0
  -- The magnitudes of the settings, in units.
  obtain ⟨k, hk⟩ : ∃ k, k = 1022 := ⟨_, rfl⟩
  have hone : unitsPerOne = 2 ^ 52 * 2 ^ k := by
    rw [← Nat.pow_add]
    exact unitsPerOne_eq (by omega)
  rw [← hk] at hratio
  have hpow := isUnsigned_twoPow (k := -52) (by decide) (by decide)
  obtain ⟨hpowfinite, hpowmag⟩ := twoPow_spec (k := -52) (by decide) (by decide)
  have hexp : ((-52 : Int) + 1074).toNat = k := by omega
  rw [hexp] at hpowmag
  have hsnap : (2 ^ k : Nat) ≤ zeroSnap.units := by
    rw [le_iff hpowfinite hfinite, hpow.units_eq, hpowmag] at hlow
    exact hlow
  have hsnapOne : zeroSnap.units < unitsPerOne := by
    rwa [lt_iff hfinite isFinite_one, units_one] at hhigh
  have hkpos : 0 < 2 ^ k := Nat.two_pow_pos k
  have hsnapUnsigned : IsUnsigned zeroSnap := isUnsigned_of_units_pos (by omega)
  rw [hsnapUnsigned.units_eq] at hsnap hsnapOne
  have hterms := isUnsigned_max hsmaller hrebuilt
  obtain ⟨hbound, hboundmag⟩ := mul_unsigned_of_le_one hterms hsnapUnsigned (by omega)
  rw [magnitude_max hsmaller hrebuilt] at hboundmag
  have hgrid := (fits_magnitude (smaller upper lower)).dvd
  have hnormal : 2 ^ 52 * Max.max upper.magnitude lower.magnitude ≤
      (smaller upper lower).magnitude * unitsPerOne := by
    rw [hsmall, hone, Nat.mul_comm _ (2 ^ 52 * 2 ^ k), Nat.mul_assoc]
    exact Nat.mul_le_mul_left _ hratio
  rw [← hsmall] at hrebuiltmag
  cases roundUnits_mul_roundUnits (by omega) unitsPerOne_pos hnormal hgrid with
  | inl hexact =>
    rw [← hrebuiltmag] at hexact
    rw [hexact, Int.sub_self, Int.natAbs_zero, roundUnits_zero] at hremmag
    exact Or.inr ((isZero_iff_magnitude hrem).mpr hremmag)
  | inr hclose =>
    rw [← hrebuiltmag] at hclose
    obtain ⟨hstep, habove, hbelow⟩ := hclose
    have hremle : (remainder upper lower).magnitude ≤ 2 ^ spareBits (smaller upper lower).magnitude := by
      rw [hremmag]
      exact roundUnits_le (by decide) (spareBits_dvd_two_pow _) (by omega)
    have hboundle : 2 ^ spareBits (smaller upper lower).magnitude ≤
        (zeroSnap * (smaller upper lower).max (rebuilt upper lower)).magnitude := by
      calc
        2 ^ spareBits (smaller upper lower).magnitude
          ≤ roundUnits (smaller upper lower).magnitude (2 ^ 52) :=
            le_roundUnits (by decide) (spareBits_dvd_two_pow _) (by omega)
        _ = roundUnits ((smaller upper lower).magnitude * 2 ^ k) unitsPerOne := by
          rw [hone, roundUnits_mul_mul hkpos]
        _ ≤ roundUnits (Max.max (smaller upper lower).magnitude (rebuilt upper lower).magnitude *
            zeroSnap.magnitude) unitsPerOne :=
          roundUnits_mono unitsPerOne_pos (Nat.mul_le_mul (Nat.le_max_left _ _) (by omega))
        _ = _ := by rw [mul_comm, hboundmag]
    refine Or.inl ⟨(isPositive_iff hfinite).mpr (by rw [hsnapUnsigned.units_eq]; omega), ?_⟩
    rw [mul_comm, le_iff (by rwa [isFinite_abs]) hbound.isFinite, units_abs, hbound.units_eq, mul_comm]
    omega

end remainder

end Multipliers

end RowSweep
