import RowSweep.Proofs.Binary64.Negative
import RowSweep.Proofs.Binary64.NonFinite
import RowSweep.Proofs.Multipliers.Cancel
import RowSweep.Proofs.Row.Shift

/-!
This module contains the combination of rows that are powers of two apart. With multipliers of the same kind, and as
long as no product becomes subnormal, the combined rows are a power of two apart as well.
-/

namespace RowSweep

open Binary64

attribute [local irreducible] unitsPerOne rangeEnd

namespace Binary64

theorem Shifted.signApply (h : Shifted e x x') (s : Sign) : Shifted e (s.apply x) (s.apply x') := by
  cases s with
  | plus => exact h
  | minus => exact h.neg

theorem Scaled.signApply (h : Scaled e x x') (s : Sign) : Scaled e (s.apply x) (s.apply x') := by
  cases s with
  | plus => exact h
  | minus => exact h.neg

end Binary64

namespace Multipliers

structure Shifted (i j : Int) (k k' : Multipliers) : Prop where
  target : Binary64.Shifted i k.target k'.target
  copy : Binary64.Shifted j k.copy k'.copy
  sign_eq : k'.sign = k.sign

structure Scaled (i j : Int) (k k' : Multipliers) : Prop where
  target : Binary64.Scaled i k.target k'.target
  copy : Binary64.Scaled j k.copy k'.copy
  sign_eq : k'.sign = k.sign

theorem Scaled.shifted {k k' : Multipliers} (h : k.Scaled i j k') : k.Shifted i j k' :=
  ⟨h.target.shifted, h.copy.shifted, h.sign_eq⟩

structure IsNormalCell (k : Multipliers) (zeroSnap upper lower : Binary64) : Prop where
  left : upper.IsNormalProduct k.target
  right : lower.IsNormalProduct (k.sign.apply k.copy)
  snap : zeroSnap.IsNormalProduct ((upper * k.target).abs.max (lower * k.sign.apply k.copy).abs)

instance (k : Multipliers) (zeroSnap upper lower : Binary64) : Decidable (k.IsNormalCell zeroSnap upper lower) :=
  decidable_of_iff (upper.IsNormalProduct k.target ∧ lower.IsNormalProduct (k.sign.apply k.copy) ∧
      zeroSnap.IsNormalProduct ((upper * k.target).abs.max (lower * k.sign.apply k.copy).abs))
    ⟨fun h => ⟨h.left, h.right.left, h.right.right⟩, fun h => ⟨h.left, h.right, h.snap⟩⟩

variable {k k' : Multipliers} {i j a b : Int} {zeroSnap : Binary64}

section cell

variable {upper upper' lower lower' : Binary64} (hterms : a + i = b + j)
variable (hnormal : k.IsNormalCell zeroSnap upper lower) (hnormal' : k'.IsNormalCell zeroSnap upper' lower')
variable (hsum : (upper * k.target + lower * k.sign.apply k.copy).isFinite = true)
variable (hsum' : (upper' * k'.target + lower' * k'.sign.apply k'.copy).isFinite = true)

include hterms hnormal hnormal' hsum hsum'

theorem Shifted.terms (h : k.Shifted i j k') (hu : Binary64.Shifted a upper upper')
    (hl : Binary64.Shifted b lower lower') :
    Binary64.Shifted (a + i) (upper * k.target) (upper' * k'.target) ∧
      Binary64.Shifted (a + i) (lower * k.sign.apply k.copy) (lower' * k'.sign.apply k'.copy) := by
  obtain ⟨hfinite, hfiniteLower⟩ := isFinite_of_isFinite_add hsum
  obtain ⟨hfinite', hfiniteLower'⟩ := isFinite_of_isFinite_add hsum'
  have hcopy : Binary64.Shifted j (k.sign.apply k.copy) (k'.sign.apply k'.copy) := by
    rw [h.sign_eq]
    exact h.copy.signApply k.sign
  have hright := hl.mul hcopy hnormal.right hnormal'.right hfiniteLower hfiniteLower'
  rw [← hterms] at hright
  exact ⟨hu.mul h.target hnormal.left hnormal'.left hfinite hfinite', hright⟩

theorem Shifted.combineCell_cases (h : k.Shifted i j k') (hsnap : Within unitsPerOne zeroSnap)
    (hu : Binary64.Shifted a upper upper') (hl : Binary64.Shifted b lower lower') :
    (k.combineCell zeroSnap upper lower = .zero ∧ k'.combineCell zeroSnap upper' lower' = .zero) ∨
      (k.combineCell zeroSnap upper lower = upper * k.target + lower * k.sign.apply k.copy ∧
        k'.combineCell zeroSnap upper' lower' = upper' * k'.target + lower' * k'.sign.apply k'.copy) := by
  -- Both terms are moved by the same power of two, so they cancel as before, and what is noise beside them
  -- stays noise.
  obtain ⟨hleft, hright⟩ := h.terms hterms hnormal hnormal' hsum hsum' hu hl
  have hlargest := hleft.abs.max hright.abs
  have hboundFinite : ∀ x : Binary64, x.isFinite = true → (zeroSnap * x).isFinite = true := by
    intro x hx
    rw [Binary64.mul_comm]
    exact (Within.mul_of_le_one (fits_magnitude x) (within_self hx) hsnap).isFinite
  have hbound := (Binary64.Shifted.refl hsnap.isFinite).mul hlargest hnormal.snap hnormal'.snap
    (hboundFinite _ hlargest.left) (hboundFinite _ hlargest.right)
  rw [zero_add] at hbound
  unfold Multipliers.combineCell
  dsimp only
  rw [(hleft.add hright hsum hsum').abs.le_eq hbound]
  split
  . exact Or.inl ⟨rfl, rfl⟩
  . exact Or.inr ⟨rfl, rfl⟩

theorem Shifted.combineCell (h : k.Shifted i j k') (hsnap : Within unitsPerOne zeroSnap)
    (hu : Binary64.Shifted a upper upper') (hl : Binary64.Shifted b lower lower') :
    Binary64.Shifted (a + i) (k.combineCell zeroSnap upper lower) (k'.combineCell zeroSnap upper' lower') := by
  obtain ⟨hleft, hright⟩ := h.terms hterms hnormal hnormal' hsum hsum' hu hl
  cases h.combineCell_cases hterms hnormal hnormal' hsum hsum' hsnap hu hl with
  | inl hzero =>
    rw [hzero.left, hzero.right]
    exact ⟨rfl, rfl, by simp⟩
  | inr hcells =>
    rw [hcells.left, hcells.right]
    exact hleft.add hright hsum hsum'

theorem Scaled.combineCell (h : k.Scaled i j k') (hsnap : Within unitsPerOne zeroSnap)
    (hu : Binary64.Scaled a upper upper') (hl : Binary64.Scaled b lower lower') :
    Binary64.Scaled (a + i) (k.combineCell zeroSnap upper lower) (k'.combineCell zeroSnap upper' lower') := by
  obtain ⟨hleft, hright⟩ := h.shifted.terms hterms hnormal hnormal' hsum hsum' hu.shifted hl.shifted
  refine ⟨h.shifted.combineCell hterms hnormal hnormal' hsum hsum' hsnap hu.shifted hl.shifted, ?_⟩
  cases h.shifted.combineCell_cases hterms hnormal hnormal' hsum hsum' hsnap hu.shifted hl.shifted with
  | inl hzero => rw [hzero.left, hzero.right]
  | inr hcells =>
    rw [hcells.left, hcells.right]
    have hcopy : Binary64.Scaled j (k.sign.apply k.copy) (k'.sign.apply k'.copy) := by
      rw [h.sign_eq]
      exact h.copy.signApply k.sign
    exact ((hu.mul h.target hleft).add (hl.mul hcopy hright) (hleft.add hright hsum hsum')).isNegative_eq

end cell

section row

variable {upper upper' lower lower' : Row n} (hterms : a + i = b + j)
variable (hnormal : ∀ p : Fin n, k.IsNormalCell zeroSnap upper[p] lower[p])
variable (hnormal' : ∀ p : Fin n, k'.IsNormalCell zeroSnap upper'[p] lower'[p])
variable (hsum : ∀ p : Fin n, (upper[p] * k.target + lower[p] * k.sign.apply k.copy).isFinite = true)
variable (hsum' : ∀ p : Fin n, (upper'[p] * k'.target + lower'[p] * k'.sign.apply k'.copy).isFinite = true)

include hterms hnormal hnormal' hsum hsum'

theorem Shifted.combine (h : k.Shifted i j k') (hsnap : Within unitsPerOne zeroSnap) (hu : upper.Shifted a upper')
    (hl : lower.Shifted b lower') :
    (k.combine zeroSnap upper lower).Shifted (a + i) (k'.combine zeroSnap upper' lower') := by
  intro p
  rw [getElem_combine, getElem_combine]
  exact h.combineCell hterms (hnormal p) (hnormal' p) (hsum p) (hsum' p) hsnap (hu p) (hl p)

theorem Scaled.combine (h : k.Scaled i j k') (hsnap : Within unitsPerOne zeroSnap) (hu : upper.Scaled a upper')
    (hl : lower.Scaled b lower') :
    (k.combine zeroSnap upper lower).Scaled (a + i) (k'.combine zeroSnap upper' lower') := by
  intro p
  rw [getElem_combine, getElem_combine]
  exact h.combineCell hterms (hnormal p) (hnormal' p) (hsum p) (hsum' p) hsnap (hu p) (hl p)

end row

section scaling

variable {upper upper' lower lower' : Binary64}

theorem larger_eq (hu : upper.isFinite = true) (hl : lower.isFinite = true)
    (hle : lower.abs.lt upper.abs = false) : upper.abs.larger lower.abs = lower.abs := by
  -- The lower entry is the larger one, unless the two magnitudes are the same.
  have hlt := lt_iff (x := lower.abs) (y := upper.abs) (by simpa) (by simpa)
  rw [hle, units_abs, units_abs] at hlt
  apply larger_eq_right hu hl
  simp at hlt
  omega

theorem shifted_scaling (hu : Binary64.Shifted a upper upper') (hl : Binary64.Shifted b lower lower')
    (hu0 : upper.isZero = false) (hl0 : lower.isZero = false) (hle : lower.abs.lt upper.abs = false)
    (hle' : lower'.abs.lt upper'.abs = false) (hratio : upper.IsComparable lower)
    (hratio' : upper'.IsComparable lower') : Shifted 0 (a - b) (scaling upper lower) (scaling upper' lower') := by
  obtain ⟨htarget, hcopy⟩ := within_scaling hu.left hl.left hu0
  obtain ⟨htarget', hcopy'⟩ := within_scaling hu.right hl.right (by rwa [hu.isZero_eq])
  have htarget := htarget.isFinite
  have hcopy := hcopy.isFinite
  have htarget' := htarget'.isFinite
  have hcopy' := hcopy'.isFinite
  have hne : lower.abs.magnitude ≠ 0 := by
    rw [magnitude_abs]
    exact magnitude_ne_zero hl.left hl0
  obtain ⟨k, hk⟩ : ∃ k, k = 1022 := ⟨_, rfl⟩
  have hone : unitsPerOne = 2 ^ 52 * 2 ^ k := by
    rw [← Nat.pow_add]
    exact unitsPerOne_eq (by omega)
  unfold IsComparable at hratio hratio'
  rw [← hk] at hratio hratio'
  have hnormal : ∀ {x y : Binary64}, y.magnitude ≤ 2 ^ k * x.magnitude →
      2 ^ 52 * y.abs.magnitude ≤ x.abs.magnitude * unitsPerOne := by
    intro x y h
    rw [magnitude_abs, magnitude_abs, hone, Nat.mul_comm x.magnitude, Nat.mul_assoc]
    exact Nat.mul_le_mul_left _ h
  have hself : ∀ x : Binary64, x.magnitude ≤ 2 ^ k * x.magnitude :=
    fun x => Nat.le_mul_of_pos_left _ (Nat.two_pow_pos k)
  unfold scaling at *
  dsimp only at *
  rw [larger_eq hu.left hl.left hle, larger_eq hu.right hl.right hle'] at *
  refine ⟨?_, ?_, ?_⟩
  -- The larger entry is divided by itself, the other one by an entry that is moved as well.
  . have hdiv := hl.abs.div hl.abs hne (hnormal (hself _)) (hnormal (hself _)) htarget htarget'
    rwa [sub_self] at hdiv
  . exact hu.abs.div hl.abs hne (hnormal hratio.right) (hnormal hratio'.right) hcopy hcopy'
  . dsimp only
    rw [hu.isPositive_eq, hl.isPositive_eq]

theorem isNegative_scaling (hu : upper.isFinite = true) (hl : lower.isFinite = true) (hu0 : upper.isZero = false) :
    (scaling upper lower).target.isNegative = false ∧ (scaling upper lower).copy.isNegative = false := by
  have hlargest := isFinite_largest hu hl
  have hmagnitude := magnitude_largest hu hl
  have hne := magnitude_ne_zero hu hu0
  have hunsigned : (upper.abs.larger lower.abs).isNegative = false := by
    cases larger_cases upper.abs lower.abs with
    | inl heq => rw [heq, isNegative_abs]
    | inr heq => rw [heq, isNegative_abs]
  unfold scaling
  dsimp only
  rw [isNegative_div (by simpa) hlargest (by omega), isNegative_div (by simpa) hlargest (by omega), hunsigned,
    isNegative_abs, isNegative_abs]
  exact ⟨rfl, rfl⟩

end scaling

theorem exists_gcd_mul_two_pow (x y p : Nat) : ∃ i, Nat.gcd (x * 2 ^ p) y = Nat.gcd x y * 2 ^ i := by
  obtain ⟨q, hq⟩ : Nat.gcd x y ∣ Nat.gcd (x * 2 ^ p) y := Nat.gcd_dvd_gcd_mul_right_left x y (2 ^ p)
  by_cases hzero : Nat.gcd x y = 0
  . rw [Nat.gcd_eq_zero_iff] at hzero
    exact ⟨0, by simp [hzero]⟩
  have hdvd : Nat.gcd x y * q ∣ Nat.gcd x y * 2 ^ p := by
    rw [← hq]
    apply Nat.dvd_trans (Nat.gcd_mul_left_dvd_mul_gcd y x (2 ^ p))
    exact Nat.mul_dvd_mul_left _ (Nat.gcd_dvd_left _ _)
  obtain ⟨i, -, rfl⟩ := (Nat.dvd_prime_pow Nat.prime_two).mp
    (Nat.dvd_of_mul_dvd_mul_left (Nat.pos_of_ne_zero hzero) hdvd)
  exact ⟨i, hq⟩

theorem exists_gcd_eq_zpow {x y x' y' : Nat} (hx : (x' : ℚ) = x * 2 ^ a) (hy : (y' : ℚ) = y * 2 ^ b) :
    ∃ s : Int, (Nat.gcd x' y' : ℚ) = Nat.gcd x y * 2 ^ s := by
  -- The common divisor of numbers that are moved by powers of two is moved by a power of two.
  rw [eq_mul_zpow_iff] at hx hy
  replace hx : x' * 2 ^ (-a).toNat = x * 2 ^ a.toNat := by exact_mod_cast hx
  replace hy : y' * 2 ^ (-b).toNat = y * 2 ^ b.toNat := by exact_mod_cast hy
  -- All four are compared through the divisor of the numbers that both pairs share.
  obtain ⟨p, hp⟩ := exists_gcd_mul_two_pow x y a.toNat
  obtain ⟨q, hq⟩ := exists_gcd_mul_two_pow y (x * 2 ^ a.toNat) b.toNat
  obtain ⟨p', hp'⟩ := exists_gcd_mul_two_pow x' y' (-a).toNat
  obtain ⟨q', hq'⟩ := exists_gcd_mul_two_pow y' (x' * 2 ^ (-a).toNat) (-b).toNat
  have hgcd : Nat.gcd x' y' * 2 ^ p' * 2 ^ q' = Nat.gcd x y * 2 ^ p * 2 ^ q := by
    rw [← hp', ← hp, Nat.gcd_comm _ y', Nat.gcd_comm _ y, ← hq, ← hq', hx, hy]
  refine ⟨(p + q : Int) - (p' + q'), ?_⟩
  have hcast : (Nat.gcd x' y' * 2 ^ p' * 2 ^ q' : ℚ) = Nat.gcd x y * 2 ^ p * 2 ^ q := by exact_mod_cast hgcd
  rw [zpow_sub₀ two_ne_zero, zpow_add₀ two_ne_zero, zpow_add₀ two_ne_zero]
  simp only [zpow_natCast]
  rw [← mul_div_assoc, eq_div_iff (by positivity), ← mul_assoc, ← mul_assoc, hcast]

theorem cast_div_eq {x d x' d' : Nat} {s : Int} (hx : (x' : ℚ) = x * 2 ^ a) (hd : (d' : ℚ) = d * 2 ^ s)
    (hdvd : d ∣ x) (hdvd' : d' ∣ x') (hzero : d ≠ 0) : ((x' / d' : Nat) : ℚ) = (x / d : Nat) * 2 ^ (a - s) := by
  have hdq : (d : ℚ) ≠ 0 := Nat.cast_ne_zero.mpr hzero
  have hpow : (2 : ℚ) ^ s ≠ 0 := zpow_ne_zero s two_ne_zero
  have hdq' : (d' : ℚ) ≠ 0 := by
    rw [hd]
    exact mul_ne_zero hdq hpow
  rw [Nat.cast_div hdvd' hdq', Nat.cast_div hdvd hdq, hx, hd, zpow_sub₀ two_ne_zero]
  field_simp

theorem shifted_ofNat {x x' : Nat} (hx : x ≤ 2 ^ 53) (hx' : x' ≤ 2 ^ 53) (h : (x' : ℚ) = x * 2 ^ a) :
    Binary64.Shifted a (ofNat x) (ofNat x') := by
  refine ⟨(ofNat_spec hx).left, (ofNat_spec hx').left, ?_⟩
  rw [(ofNat_spec hx).right, (ofNat_spec hx').right]
  push_cast
  rw [h]
  ring

theorem natAbs_eq_of_integer? {x x' : Binary64} (h : Binary64.Shifted a x x') (hi : x.integer? = some i)
    (hi' : x'.integer? = some i') : (i'.natAbs : ℚ) = i.natAbs * 2 ^ a := by
  have hmag := h.magnitude_eq
  rw [magnitude_of_integer? hi, magnitude_of_integer? hi'] at hmag
  rw [Nat.cast_mul, Nat.cast_mul] at hmag
  apply mul_right_cancel₀ unitsPerOne_cast_ne_zero
  rw [hmag]
  ring

theorem exists_shifted_integral? {upper upper' lower lower' : Binary64} (hk : integral? upper lower = some k)
    (hk' : integral? upper' lower' = some k') (hu : Binary64.Shifted a upper upper')
    (hl : Binary64.Shifted b lower lower') (hl0 : lower.isZero = false) :
    ∃ i j, a + i = b + j ∧ k.Shifted i j k' := by
  -- Whole multipliers are moved by the power of two of the other entry, apart from the one in the common
  -- divisor.
  obtain ⟨x, y, hx, hy, rfl⟩ := integral?_eq_some.mp hk
  obtain ⟨x', y', hx', hy', rfl⟩ := integral?_eq_some.mp hk'
  obtain ⟨hx, hxle⟩ := exactInteger?_eq_some.mp hx
  obtain ⟨hy, hyle⟩ := exactInteger?_eq_some.mp hy
  obtain ⟨hx', hxle'⟩ := exactInteger?_eq_some.mp hx'
  obtain ⟨hy', hyle'⟩ := exactInteger?_eq_some.mp hy'
  have hxabs := natAbs_eq_of_integer? hu hx hx'
  have hyabs := natAbs_eq_of_integer? hl hy hy'
  obtain ⟨s, hs⟩ := exists_gcd_eq_zpow hxabs hyabs
  have hgcd : Nat.gcd x.natAbs y.natAbs ≠ 0 := by
    intro hzero
    rw [(isZero_iff_of_integer? hy).mpr (Int.natAbs_eq_zero.mp (Nat.gcd_eq_zero_iff.mp hzero).right)] at hl0
    cases hl0
  refine ⟨b - s, a - s, by ring, ?_, ?_, ?_⟩
  . apply shifted_ofNat (Nat.le_trans (Nat.div_le_self _ _) hyle) (Nat.le_trans (Nat.div_le_self _ _) hyle')
    exact cast_div_eq hyabs hs (Nat.gcd_dvd_right _ _) (Nat.gcd_dvd_right _ _) hgcd
  . apply shifted_ofNat (Nat.le_trans (Nat.div_le_self _ _) hxle) (Nat.le_trans (Nat.div_le_self _ _) hxle')
    exact cast_div_eq hxabs hs (Nat.gcd_dvd_left _ _) (Nat.gcd_dvd_left _ _) hgcd
  . dsimp only
    rw [hu.isPositive_eq, hl.isPositive_eq]

end Multipliers

end RowSweep
