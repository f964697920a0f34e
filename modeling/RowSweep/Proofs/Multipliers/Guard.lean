import RowSweep.Proofs.Binary64.Shift
import RowSweep.Proofs.Multipliers.Exact

/-!
This module contains what the guard of whole multipliers lets through. It is evaluated with rounding, so the terms that
it adds may exceed the exact range by one, and a combined cell that does so is rounded.
-/

namespace RowSweep

open Binary64

attribute [local irreducible] unitsPerOne rangeEnd

namespace Binary64

theorem roundUnits_succ_exactLimit : roundUnits ((2 ^ 53 + 1) * unitsPerOne) 1 = 2 ^ 53 * unitsPerOne := by
  obtain ⟨e, he⟩ : ∃ e, e = 1074 := ⟨_, rfl⟩
  have hround : roundUnits (2 ^ 53 + 1) 1 = 2 ^ 53 := by decide +kernel
  rw [unitsPerOne_eq he, roundUnits_one_mul_two_pow, hround]

theorem le_roundUnits_of_even_le (h : 2 ^ 53 + 2 ≤ i) :
    (2 ^ 53 + 2) * unitsPerOne ≤ roundUnits (i * unitsPerOne) 1 := by
  obtain ⟨e, he⟩ : ∃ e, e = 1074 := ⟨_, rfl⟩
  apply le_roundUnits (by decide)
  . have heven : (2 ^ 53 + 2) * unitsPerOne = (2 ^ 52 + 1) * 2 ^ (e + 1) := by
      rw [unitsPerOne_eq he, Nat.pow_succ]
      omega
    rw [heven]
    exact spareBits_dvd_mul_two_pow (by decide) _
  . rw [Nat.mul_one]
    exact Nat.mul_le_mul_right _ h

theorem roundUnits_le_exactLimit_iff : roundUnits (i * unitsPerOne) 1 ≤ 2 ^ 53 * unitsPerOne ↔ i ≤ 2 ^ 53 + 1 := by
  have hpos := unitsPerOne_pos
  constructor
  . intro h
    apply Nat.le_of_not_lt
    intro hlt
    have heven := le_roundUnits_of_even_le hlt
    omega
  . intro h
    rw [← roundUnits_succ_exactLimit]
    exact roundUnits_mono (by decide) (Nat.mul_le_mul_right _ h)

theorem roundUnits_of_le_succ (h : i ≤ 2 ^ 53 + 1) :
    roundUnits (i * unitsPerOne) 1 = Min.min i (2 ^ 53) * unitsPerOne := by
  by_cases hi : i ≤ 2 ^ 53
  . rw [Nat.min_eq_left hi]
    exact roundUnits_one_of_dvd (fits_mul_unitsPerOne hi).dvd
  . have hsucc : i = 2 ^ 53 + 1 := by omega
    rw [hsucc]
    exact roundUnits_succ_exactLimit

theorem terms_le_of_roundUnits
    (h : roundUnits (roundUnits (a * unitsPerOne) 1 + roundUnits (b * unitsPerOne) 1) 1 ≤ 2 ^ 53 * unitsPerOne) :
    a ≤ 2 ^ 53 + 1 ∧ b ≤ 2 ^ 53 + 1 ∧ Min.min a (2 ^ 53) + Min.min b (2 ^ 53) ≤ 2 ^ 53 + 1 := by
  have hle : ∀ i, roundUnits (i * unitsPerOne) 1 ≤ roundUnits (a * unitsPerOne) 1 + roundUnits (b * unitsPerOne) 1 →
      i ≤ 2 ^ 53 + 1 := by
    intro i hterm
    have hround := Nat.le_trans (roundUnits_mono (by decide) hterm) h
    rwa [roundUnits_one_of_dvd (spareBits_dvd_roundUnits _ _), roundUnits_le_exactLimit_iff] at hround
  have ha := hle a (Nat.le_add_right _ _)
  have hb := hle b (Nat.le_add_left _ _)
  rw [roundUnits_of_le_succ ha, roundUnits_of_le_succ hb, ← Nat.add_mul, roundUnits_le_exactLimit_iff] at h
  exact ⟨ha, hb, h⟩

theorem magnitude_mul_integers (hx : integer? x = some i) (hy : integer? y = some j)
    (hxy : (x * y).isFinite = true) : (x * y).magnitude = roundUnits ((i * j).natAbs * unitsPerOne) 1 := by
  have hpos := unitsPerOne_pos
  rw [magnitude_mul (isFinite_of_integer? hx) (isFinite_of_integer? hy) hxy, magnitude_of_integer? hx,
    magnitude_of_integer? hy]
  apply roundUnits_congr hpos (by decide)
  rw [Int.natAbs_mul, Nat.mul_one]
  ac_rfl

theorem natAbs_ne_of_integer? (h : integer? x = some i) : i.natAbs ≠ 2 ^ 53 + 1 := by
  intro hi
  have hfits := fits_magnitude x
  rw [magnitude_of_integer? h, hi] at hfits
  have hround := roundUnits_one_of_dvd hfits.dvd
  have hpos := unitsPerOne_pos
  rw [roundUnits_succ_exactLimit] at hround
  omega

theorem integer?_add_of_succ (hx : integer? x = some i) (hy : integer? y = some j)
    (h : (i + j).natAbs = 2 ^ 53 + 1) : integer? (x + y) = some ((i + j).sign * 2 ^ 53) := by
  have hpos := unitsPerOne_pos
  have hsum : x.units + y.units = (i + j) * unitsPerOne := by
    rw [units_of_integer? hx, units_of_integer? hy, Int.add_mul]
  have habs : (x.units + y.units).natAbs = (2 ^ 53 + 1) * unitsPerOne := by
    rw [hsum, Int.natAbs_mul, Int.natAbs_natCast, h]
  have hlt := lt_rangeEnd_of_fits (fits_mul_unitsPerOne (Nat.le_refl (2 ^ 53)))
  have hfinite := (add_spec (isFinite_of_integer? hx) (isFinite_of_integer? hy)
    (by rw [habs, roundUnits_succ_exactLimit]; exact hlt)).left
  rw [integer?_eq_some, units_add (isFinite_of_integer? hx) (isFinite_of_integer? hy) hfinite]
  refine ⟨hfinite, ?_⟩
  unfold roundInt
  rw [habs, roundUnits_succ_exactLimit, hsum, Int.sign_mul, Int.sign_natCast_of_ne_zero (by omega), Int.mul_one,
    Int.natCast_mul, Int.mul_assoc]
  rfl

end Binary64

namespace Multipliers

variable {k : Multipliers} {upper lower : Row n} {c : Fin n} {t w : Nat}

theorem roundUnits_le_of_staysExact (htarget : k.target.integer? = some (t : Int))
    (hcopy : k.copy.integer? = some (w : Int)) (hunsigned : IsUnsigned k.target ∧ IsUnsigned k.copy)
    (hupper : upper.IsInteger) (hlower : lower.IsInteger) (h : k.staysExact upper lower = true) :
    roundUnits (roundUnits (t * upper.largest * unitsPerOne) 1 + roundUnits (w * lower.largest * unitsPerOne) 1) 1 ≤
      2 ^ 53 * unitsPerOne := by
  have hu := mul_unsigned hunsigned.left (Row.isUnsigned_peak hupper.isFinite)
  have hw := mul_unsigned hunsigned.right (Row.isUnsigned_peak hlower.isFinite)
  unfold staysExact at h
  obtain ⟨hu, hw, hsum⟩ := unsigned_of_add_le hu hw h
  rw [le_exactLimit_iff hsum.isFinite, hsum.units_eq, magnitude_add_unsigned hu hw hsum.isFinite,
    magnitude_mul_integers htarget hupper.integer?_peak hu.isFinite,
    magnitude_mul_integers hcopy hlower.integer?_peak hw.isFinite] at h
  exact_mod_cast h

theorem mul_ne_of_mul_eq_one (hp : p ≠ 2 ^ 53 + 1) (hq : w * q = 1) (ht : t ≤ q) : t * p ≠ 2 ^ 53 + 1 := by
  -- A term of the guard that exceeds the exact range has a factor that does so.
  intro hmul
  rw [Nat.eq_one_of_mul_eq_one_left hq] at ht
  cases Nat.le_one_iff_eq_zero_or_eq_one.mp ht with
  | inl hzero => simp [hzero] at hmul
  | inr hone =>
    rw [hone, Nat.one_mul] at hmul
    exact hp hmul

structure IsGuarded (k : Multipliers) (t w : Nat) (upper lower : Row n) : Prop where
  target : k.target.integer? = some (t : Int)
  copy : k.copy.integer? = some (w : Int)
  upper_le : t * upper.largest ≤ 2 ^ 53
  lower_le : w * lower.largest ≤ 2 ^ 53
  add_le : t * upper.largest + w * lower.largest ≤ 2 ^ 53 + 1

theorem exists_isGuarded (hk : integral? upper[c] lower[c] = some k) (hx : upper[c].isZero = false)
    (hy : lower[c].isZero = false) (hupper : upper.IsInteger) (hlower : lower.IsInteger)
    (h : k.staysExact upper lower = true) : ∃ t w, k.IsGuarded t w upper lower := by
  have hunsigned := isUnsigned_integral? hk
  obtain ⟨x, y, t, w, hxint, hyint, hterms⟩ := exists_inLowestTerms hk hx hy
  have hxlargest := upper.natAbs_le_largest c
  have hylargest := lower.natAbs_le_largest c
  rw [toInt_of_integer? (exactInteger?_eq_some.mp hxint).left] at hxlargest
  rw [toInt_of_integer? (exactInteger?_eq_some.mp hyint).left] at hylargest
  have htpos := hterms.target_pos
  have hwpos := hterms.copy_pos
  have htle := hterms.target_le_natAbs
  have hwle := hterms.copy_le_natAbs
  obtain ⟨hu, hw, hsum⟩ := terms_le_of_roundUnits (roundUnits_le_of_staysExact hterms.target hterms.copy hunsigned
    hupper hlower h)
  have hupos : 0 < t * upper.largest := Nat.mul_pos htpos (by omega)
  have hlpos : 0 < w * lower.largest := Nat.mul_pos hwpos (by omega)
  have huodd : w * lower.largest = 1 → t * upper.largest ≠ 2 ^ 53 + 1 := by
    intro hone
    apply mul_ne_of_mul_eq_one _ hone (by omega)
    simpa using natAbs_ne_of_integer? hupper.integer?_peak
  have hlodd : t * upper.largest = 1 → w * lower.largest ≠ 2 ^ 53 + 1 := by
    intro hone
    apply mul_ne_of_mul_eq_one _ hone (by omega)
    simpa using natAbs_ne_of_integer? hlower.integer?_peak
  exact ⟨t, w, hterms.target, hterms.copy, by omega, by omega, by omega⟩

namespace IsGuarded

variable (h : k.IsGuarded t w upper lower)

include h

theorem exists_integer?_combineCell {x y : Binary64} {i j : Int} (hx : x.integer? = some i) (hy : y.integer? = some j)
    (hi : i.natAbs ≤ upper.largest) (hj : j.natAbs ≤ lower.largest) :
    (i * t + j * (k.sign.toInt * w)).natAbs ≤ 2 ^ 53 + 1 ∧
      ∃ e : Int, (k.combineCell .zero x y).integer? = some e ∧ e.natAbs ≤ 2 ^ 53 ∧
        (e = i * t + j * (k.sign.toInt * w) ↔ (i * t + j * (k.sign.toInt * w)).natAbs ≠ 2 ^ 53 + 1) := by
  have hi := Nat.mul_le_mul_left t hi
  have hj := Nat.mul_le_mul_left w hj
  have hut := natAbs_mul_natCast i t
  have hwc := natAbs_mul_toInt j k.sign w
  have hu_le := h.upper_le
  have hw_le := h.lower_le
  have hle := h.add_le
  have hu := integer?_mul hx h.target (by omega)
  have hw := integer?_mul hy (Sign.integer?_apply h.copy k.sign) (by omega)
  rw [combineCell_zero]
  generalize i * t = a at *
  generalize j * (k.sign.toInt * w) = b at *
  refine ⟨by omega, ?_⟩
  by_cases hodd : (a + b).natAbs = 2 ^ 53 + 1
  . have hsign : ((a + b).sign * 2 ^ 53).natAbs = 2 ^ 53 := by
      rw [Int.natAbs_mul, Int.natAbs_sign_of_ne_zero (by omega)]
      rfl
    exact ⟨_, integer?_add_of_succ hu hw hodd, by omega, by omega⟩
  . exact ⟨_, integer?_add hu hw (by omega), by omega, by omega⟩

theorem rescale_combine (hupper : upper.IsInteger) (hlower : lower.IsInteger) :
    ∃ d : Nat, 0 < d ∧ (k.combine .zero upper lower).rescale.2.integer? = some (d : Int) ∧
      (k.combine .zero upper lower).rescale.1.IsInteger ∧
      ∀ j : Fin n, (upper[j].toInt * t + lower[j].toInt * (k.sign.toInt * w)).natAbs ≤ 2 ^ 53 + 1 ∧
        ((k.combine .zero upper lower).rescale.1[j].toInt * d =
            upper[j].toInt * t + lower[j].toInt * (k.sign.toInt * w) ↔
          (upper[j].toInt * t + lower[j].toInt * (k.sign.toInt * w)).natAbs ≠ 2 ^ 53 + 1) := by
  -- The combined row is divided by a whole divisor, and no cell is rounded again.
  have hcells := fun j : Fin n => h.exists_integer?_combineCell (hupper.integer? j) (hlower.integer? j)
    (upper.natAbs_le_largest j) (lower.natAbs_le_largest j)
  simp only [← getElem_combine] at hcells
  generalize k.combine .zero upper lower = row at hcells
  have hfinite : ∀ j : Fin n, row[j].isFinite = true := by
    intro j
    obtain ⟨-, e, he, -⟩ := hcells j
    exact isFinite_of_integer? he
  have hpeak : Within (2 ^ 53 * unitsPerOne) row.peak := by
    apply Row.peak_within hfinite
    intro j
    obtain ⟨-, e, he, hle, -⟩ := hcells j
    rw [magnitude_of_integer? he]
    exact Nat.mul_le_mul_right _ hle
  obtain ⟨xs, hxs⟩ := Row.exists_integers?_eq_some (fun j => (hcells j).right.imp fun _ he => he.left)
  obtain ⟨d, hpos, hd, hdivisor, hrescaled⟩ := Row.rescale_integers hfinite hpeak.magnitude_le hxs
  refine ⟨d, hpos, ?_, ?_, ?_⟩
  . rw [hdivisor]
    exact integer?_ofNat hd
  . intro j
    obtain ⟨q, -, -, hq⟩ := hrescaled j
    rw [hq]
    rfl
  . intro j
    obtain ⟨hle, e, he, -, hiff⟩ := hcells j
    obtain ⟨q, -, hcell, hq⟩ := hrescaled j
    rw [he, Option.some.injEq] at hcell
    refine ⟨hle, ?_⟩
    rw [toInt_of_integer? hq, ← hcell, hiff]

end IsGuarded

end Multipliers

end RowSweep
