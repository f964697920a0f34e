import RowSweep.Proofs.Binary64.Shift
import RowSweep.Proofs.Multipliers.Cancel

/-!
This module contains the sum of two values of nearly the same magnitude and opposite signs: if it is small beside its
terms, it is not rounded.
-/

namespace RowSweep.Binary64

attribute [local irreducible] unitsPerOne rangeEnd

theorem roundUnits_sub (hdvd : 2 ^ spareBits a ∣ a) (hdvd' : 2 ^ spareBits b ∣ b) (hle : b ≤ a)
    (h : a ≤ 2 * b) : roundUnits (a - b) 1 = a - b := by
  -- The difference of two values that are at most a factor of two apart has no more digits than the smaller
  -- one.
  have hdigits := lt_two_pow_spareBits b
  have hstep : 2 ^ spareBits b ∣ a - b :=
    Nat.dvd_sub (Nat.dvd_trans (Nat.pow_dvd_pow 2 (spareBits_mono hle)) hdvd) hdvd'
  generalize spareBits b = s at *
  obtain ⟨q, hq⟩ := hstep
  rw [Nat.mul_comm] at hq
  have hqle : q ≤ 2 ^ 53 := by
    apply Nat.le_of_mul_le_mul_right _ (Nat.two_pow_pos s)
    omega
  rw [hq]
  exact roundUnits_one_of_dvd (spareBits_dvd_mul_two_pow hqle s)

theorem spareBits_dvd_half (hdvd : 2 ^ spareBits a ∣ a) (h : 2 ^ 53 ≤ a) :
    2 * (a / 2) = a ∧ 2 ^ spareBits (a / 2) ∣ a / 2 := by
  have hdigits := lt_two_pow_spareBits a
  obtain ⟨s, hs⟩ : ∃ s, spareBits a = s + 1 := by
    have hspare : 1 ≤ spareBits a := le_spareBits (by omega)
    exact ⟨spareBits a - 1, by omega⟩
  rw [hs] at hdvd hdigits
  obtain ⟨q, hq⟩ := hdvd
  rw [Nat.mul_comm, Nat.pow_succ, ← Nat.mul_assoc] at hq
  have hhalf : a / 2 = q * 2 ^ s := by omega
  have hqle : q ≤ 2 ^ 53 := by
    apply Nat.le_of_mul_le_mul_right _ (Nat.two_pow_pos (s + 1))
    rw [Nat.pow_succ] at hdigits ⊢
    rw [← Nat.mul_assoc, ← hq]
    omega
  rw [hhalf]
  exact ⟨by omega, spareBits_dvd_mul_two_pow hqle s⟩

theorem two_mul_roundUnits_mul_le (hz : 2 ^ spareBits z ∣ z) (hlt : 2 * z < unitsPerOne) (a : Nat) :
    2 * roundUnits (z * a) unitsPerOne ≤ a ∧ (2 ^ 53 < a → 2 * roundUnits (z * a) unitsPerOne < a) := by
  by_cases hzero : a = 0
  . simp [hzero, roundUnits_zero]
  obtain ⟨e, he⟩ : ∃ e, e = 1020 := ⟨_, rfl⟩
  have hunits : unitsPerOne = 2 ^ 54 * 2 ^ e := by
    rw [← Nat.pow_add]
    exact unitsPerOne_eq (by omega)
  rw [hunits] at hlt ⊢
  have hzle := le_of_lt_two_pow (k := e) hz (by omega)
  have hpos := Nat.two_pow_pos e
  have hprod : z * a ≤ (2 ^ 53 - 1) * (2 ^ e * a) := by
    rw [← Nat.mul_assoc]
    exact Nat.mul_le_mul_right _ hzle
  by_cases hnormal : 2 ^ 52 * (2 ^ 54 * 2 ^ e) ≤ z * a
  . -- Both the factor and the rounding are off by `2 ^ -53`, in opposite directions.
    obtain ⟨-, hround⟩ := roundUnits_error (by omega) hnormal
    suffices hless : 2 * roundUnits (z * a) (2 ^ 54 * 2 ^ e) < a from ⟨Nat.le_of_lt hless, fun _ => hless⟩
    apply Nat.lt_of_mul_lt_mul_right (a := 2 ^ e)
    have hleft : roundUnits (z * a) (2 ^ 54 * 2 ^ e) * (2 ^ 54 * 2 ^ e) =
        2 ^ 53 * (2 * roundUnits (z * a) (2 ^ 54 * 2 ^ e) * 2 ^ e) := by ring
    rw [hleft] at hround
    rw [Nat.mul_comm a]
    have hapos : 0 < 2 ^ e * a := Nat.mul_pos hpos (by omega)
    omega
  . have hquotient : z * a / (2 ^ 54 * 2 ^ e) < 2 ^ 52 := by
      rw [Nat.div_lt_iff_lt_mul (by omega)]
      omega
    have hround : roundUnits (z * a) (2 ^ 54 * 2 ^ e) = nearest (z * a) (2 ^ 54 * 2 ^ e) := by
      unfold roundUnits
      rw [spareBits_eq_zero (by omega)]
      simp
    have hnearest := nearest_le (z * a) (2 ^ 54 * 2 ^ e)
    obtain ⟨-, herror⟩ := nearest_error (d := 2 ^ 54 * 2 ^ e) (by omega) (z * a)
    have hapos : 0 < 2 ^ e * a := Nat.mul_pos hpos (by omega)
    rw [hround]
    refine ⟨?_, by omega⟩
    have hle : 2 * nearest (z * a) (2 ^ 54 * 2 ^ e) * 2 ^ e < (a + 1) * 2 ^ e := by
      rw [Nat.add_mul a, Nat.one_mul, Nat.mul_comm a]
      have hleft : nearest (z * a) (2 ^ 54 * 2 ^ e) * (2 ^ 54 * 2 ^ e) =
          2 ^ 53 * (2 * nearest (z * a) (2 ^ 54 * 2 ^ e) * 2 ^ e) := by ring
      rw [hleft] at herror
      omega
    have hlt := Nat.lt_of_mul_lt_mul_right hle
    omega

theorem roundUnits_natAbs_add {i j : Int} (hi : 2 ^ spareBits i.natAbs ∣ i.natAbs)
    (hj : 2 ^ spareBits j.natAbs ∣ j.natAbs) (hle : j.natAbs ≤ i.natAbs)
    (hhalf : 2 * roundUnits (i + j).natAbs 1 ≤ i.natAbs)
    (hstrict : 2 ^ 53 < i.natAbs → 2 * roundUnits (i + j).natAbs 1 < i.natAbs) :
    roundUnits (i + j).natAbs 1 = (i + j).natAbs := by
  by_cases hopposite : (i + j).natAbs = i.natAbs - j.natAbs
  . rw [hopposite] at hhalf hstrict ⊢
    by_cases hclose : i.natAbs ≤ 2 * j.natAbs
    . exact roundUnits_sub hi hj hle hclose
    . by_cases hlarge : 2 ^ 53 < i.natAbs
      . obtain ⟨heven, hgrid⟩ := spareBits_dvd_half hi (Nat.le_of_lt hlarge)
        have hround := le_roundUnits (n := i.natAbs - j.natAbs) (d := 1) (by decide) hgrid (by omega)
        have hlt := hstrict hlarge
        omega
      . have hgrid := spareBits_dvd_mul_two_pow (m := i.natAbs - j.natAbs) (by omega) 0
        rw [Nat.pow_zero, Nat.mul_one] at hgrid
        exact roundUnits_one_of_dvd hgrid
  . have hround := le_roundUnits (n := (i + j).natAbs) (d := 1) (by decide) hi (by omega)
    have hsum : (i + j).natAbs = 0 := by omega
    rw [hsum, roundUnits_zero]

theorem units_add_of_abs_le {x y zeroSnap : Binary64} (hx : x.isFinite = true) (hy : y.isFinite = true)
    (hsum : (x + y).isFinite = true) (hsnap : IsUnsigned zeroSnap) (hhalf : zeroSnap.lt (.twoPow (-1)) = true)
    (h : (x + y).abs.le (zeroSnap * x.abs.max y.abs) = true) : (x + y).units = x.units + y.units := by
  -- A sum that is at most `zeroSnap` times the larger one of its terms is exact when `zeroSnap` is below one
  -- half.
  obtain ⟨hpow, hpowmag⟩ := twoPow_spec (k := -1) (by decide) (by decide)
  have hlt : 2 * zeroSnap.magnitude < unitsPerOne := by
    rw [lt_iff hsnap.isFinite hpow, hsnap.units_eq, (isUnsigned_twoPow (by decide) (by decide)).units_eq,
      hpowmag] at hhalf
    obtain ⟨e, he⟩ : ∃ e, e = ((-1 : Int) + 1074).toNat := ⟨_, rfl⟩
    rw [← he] at hhalf
    rw [unitsPerOne_eq (e := e + 1) (by omega), Nat.pow_succ]
    omega
  have hterms := isUnsigned_max (isUnsigned_abs hx) (isUnsigned_abs hy)
  have hbound := mul_unsigned_of_le_one hterms hsnap (by omega)
  rw [mul_comm, le_iff (by rwa [isFinite_abs]) hbound.left.isFinite, units_abs, hbound.left.units_eq, hbound.right,
    magnitude_max (isUnsigned_abs hx) (isUnsigned_abs hy), magnitude_abs, magnitude_abs, Int.ofNat_le,
    Nat.mul_comm] at h
  have hunits := units_add hx hy hsum
  obtain ⟨hhalved, hstrict⟩ := two_mul_roundUnits_mul_le (spareBits_dvd_magnitude zeroSnap) hlt
    (Max.max x.magnitude y.magnitude)
  have hmag : (x + y).magnitude = roundUnits (x.units + y.units).natAbs 1 := by
    rw [magnitude, hunits, roundInt, Int.natAbs_mul, Int.natAbs_natCast]
    by_cases hzero : x.units + y.units = 0
    . simp [hzero, roundUnits_zero]
    . rw [Int.natAbs_sign_of_ne_zero hzero, Nat.one_mul]
  have hexact : roundUnits (x.units + y.units).natAbs 1 = (x.units + y.units).natAbs := by
    have hi := spareBits_dvd_magnitude x
    have hj := spareBits_dvd_magnitude y
    unfold magnitude at *
    cases Nat.le_total y.units.natAbs x.units.natAbs with
    | inl hle =>
      rw [Nat.max_eq_left hle] at *
      exact roundUnits_natAbs_add hi hj hle (by omega) (by omega)
    | inr hle =>
      rw [Nat.max_eq_right hle] at *
      rw [Int.add_comm] at *
      exact roundUnits_natAbs_add hj hi hle (by omega) (by omega)
  rw [hunits, roundInt, hexact, Int.sign_mul_natAbs]

end RowSweep.Binary64
