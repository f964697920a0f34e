import RowSweep.Proofs.Binary64.NonFinite
import RowSweep.Proofs.Binary64.Value
import RowSweep.Proofs.Multipliers.Cancel

/-!
This module contains the rounding errors of sums, products and quotients of values without a sign, against the
rational numbers that they stand for. A sum is off by at most `2 ^ -53` of itself, a product also by half a unit.
-/

namespace RowSweep.Binary64

attribute [local irreducible] unitsPerOne rangeEnd

theorem abs_roundUnits_one_sub_le (n : Nat) : |(roundUnits n 1 : ℚ) - n| ≤ n / 2 ^ 53 := by
  by_cases h : n < 2 ^ 53
  . have hgrid := spareBits_dvd_mul_two_pow (Nat.le_of_lt h) 0
    rw [Nat.pow_zero, Nat.mul_one] at hgrid
    rw [roundUnits_one_of_dvd hgrid, sub_self, abs_zero]
    positivity
  . obtain ⟨hlow, hhigh⟩ := roundUnits_error (n := n) (d := 1) (by decide) (by omega)
    rw [Nat.mul_one] at hlow hhigh
    have hlow : (2 ^ 53 * n : ℚ) ≤ 2 ^ 53 * roundUnits n 1 + n := by exact_mod_cast hlow
    have hhigh : (2 ^ 53 * roundUnits n 1 : ℚ) ≤ 2 ^ 53 * n + n := by exact_mod_cast hhigh
    rw [abs_le]
    constructor <;> linarith

theorem abs_roundUnits_sub_le (hd : 0 < d) (n : Nat) :
    |(roundUnits n d : ℚ) - n / d| ≤ n / d / 2 ^ 53 + 1 / 2 := by
  have hdq : (0 : ℚ) < d := Nat.cast_pos.mpr hd
  have hn : (n / d * d : ℚ) = n := div_mul_cancel₀ _ hdq.ne'
  by_cases h : 2 ^ 52 * d ≤ n
  . obtain ⟨hlow, hhigh⟩ := roundUnits_error hd h
    have hlow : (2 ^ 53 * n : ℚ) ≤ 2 ^ 53 * (roundUnits n d * d) + n := by exact_mod_cast hlow
    have hhigh : (2 ^ 53 * (roundUnits n d * d) : ℚ) ≤ 2 ^ 53 * n + n := by exact_mod_cast hhigh
    rw [← hn] at hlow hhigh
    have hlow : (2 ^ 53 * (n / d) : ℚ) ≤ 2 ^ 53 * roundUnits n d + n / d := by
      apply le_of_mul_le_mul_right _ hdq
      linarith
    have hhigh : (2 ^ 53 * roundUnits n d : ℚ) ≤ 2 ^ 53 * (n / d) + n / d := by
      apply le_of_mul_le_mul_right _ hdq
      linarith
    rw [abs_le]
    constructor <;> linarith
  . have hround : roundUnits n d = nearest n d := by
      unfold roundUnits
      have hquotient : n / d < 2 ^ 52 := by
        rw [Nat.div_lt_iff_lt_mul hd]
        omega
      rw [spareBits_eq_zero (by omega)]
      simp
    obtain ⟨hlow, hhigh⟩ := nearest_error hd n
    rw [← hround] at hlow hhigh
    have hlow : (2 * n : ℚ) ≤ 2 * (roundUnits n d * d) + d := by exact_mod_cast hlow
    have hhigh : (2 * (roundUnits n d * d) : ℚ) ≤ 2 * n + d := by exact_mod_cast hhigh
    rw [← hn] at hlow hhigh
    have hlow : (2 * (n / d) : ℚ) ≤ 2 * roundUnits n d + 1 := by
      apply le_of_mul_le_mul_right _ hdq
      linarith
    have hhigh : (2 * roundUnits n d : ℚ) ≤ 2 * (n / d) + 1 := by
      apply le_of_mul_le_mul_right _ hdq
      linarith
    have hpos : (0 : ℚ) ≤ n / d / 2 ^ 53 := by positivity
    rw [abs_le]
    constructor <;> linarith

/-!
### Values without a sign
-/

theorem IsUnsigned.toRat_eq (h : IsUnsigned x) : x.toRat = x.magnitude / unitsPerOne := by
  unfold toRat
  rw [h.units_eq, Int.cast_natCast]

theorem IsUnsigned.toRat_nonneg (h : IsUnsigned x) : 0 ≤ x.toRat := by
  rw [h.toRat_eq]
  positivity

theorem IsUnsigned.add (hx : IsUnsigned x) (hy : IsUnsigned y) (h : (x + y).isFinite = true) : IsUnsigned (x + y) := by
  cases add_unsigned hx hy with
  | inl hsum => exact hsum
  | inr hsum =>
    rw [hsum] at h
    cases h

theorem IsUnsigned.mul (hx : IsUnsigned x) (hy : IsUnsigned y) (h : (x * y).isFinite = true) : IsUnsigned (x * y) := by
  cases mul_unsigned hx hy with
  | inl hproduct => exact hproduct
  | inr hproduct =>
    rw [hproduct] at h
    cases h

theorem abs_toRat_add_sub_le (hx : IsUnsigned x) (hy : IsUnsigned y) (h : (x + y).isFinite = true) :
    |(x + y).toRat - (x.toRat + y.toRat)| ≤ (x.toRat + y.toRat) / 2 ^ 53 := by
  have hround := abs_roundUnits_one_sub_le (x.magnitude + y.magnitude)
  rw [(hx.add hy h).toRat_eq, magnitude_add_unsigned hx hy h, hx.toRat_eq, hy.toRat_eq, ← add_div, ← sub_div,
    abs_div, Nat.abs_cast, div_right_comm, div_le_div_iff_of_pos_right unitsPerOne_cast_pos]
  rwa [Nat.cast_add] at hround

theorem abs_toRat_mul_sub_le (hx : IsUnsigned x) (hy : IsUnsigned y) (h : (x * y).isFinite = true) :
    |(x * y).toRat - x.toRat * y.toRat| ≤ x.toRat * y.toRat / 2 ^ 53 + 1 / 2 / unitsPerOne := by
  have hround := abs_roundUnits_sub_le unitsPerOne_pos (x.magnitude * y.magnitude)
  rw [Nat.cast_mul, mul_div_right_comm] at hround
  have hproduct : x.toRat * y.toRat = x.magnitude / unitsPerOne * y.magnitude / unitsPerOne := by
    rw [hx.toRat_eq, hy.toRat_eq, mul_div_assoc]
  rw [(hx.mul hy h).toRat_eq, magnitude_mul hx.isFinite hy.isFinite h, hproduct, ← sub_div, abs_div, Nat.abs_cast,
    div_right_comm, ← add_div, div_le_div_iff_of_pos_right unitsPerOne_cast_pos]
  exact hround

/-!
### Overflow

A result that is at most `3 * 2 ^ 1022` before it is rounded is finite.
-/

theorem fits_three_mul (h : k ≤ 2096) : Fits (3 * 2 ^ k) := by
  apply fits_of_dvd (spareBits_dvd_mul_two_pow (by decide) k)
  obtain ⟨e, he⟩ : ∃ e, e = 2098 := ⟨_, rfl⟩
  have hle : 2 ^ (k + 2) ≤ 2 ^ e := Nat.pow_le_pow_right (by decide) (by omega)
  have hpos := Nat.two_pow_pos k
  rw [Nat.pow_add] at hle
  rw [rangeEnd_eq he]
  omega

theorem isFinite_add_of_le (hx : IsUnsigned x) (hy : IsUnsigned y) (h : x.toRat + y.toRat ≤ 3 * 2 ^ 1022) :
    (x + y).isFinite = true := by
  obtain ⟨e, he⟩ : ∃ e, e = 1022 := ⟨_, rfl⟩
  obtain ⟨k, hk⟩ : ∃ k, k = 1074 := ⟨_, rfl⟩
  rw [← he, hx.toRat_eq, hy.toRat_eq, ← add_div, div_le_iff₀ unitsPerOne_cast_pos, unitsPerOne_eq hk] at h
  refine (within_add (fits_three_mul (k := e + k) (by omega)) hx.isFinite hy.isFinite ?_).isFinite
  rw [Nat.pow_add, ← Nat.mul_assoc]
  exact_mod_cast h

theorem isFinite_mul_of_le (hx : IsUnsigned x) (hy : IsUnsigned y) (h : x.toRat * y.toRat ≤ 3 * 2 ^ 1022) :
    (x * y).isFinite = true := by
  obtain ⟨e, he⟩ : ∃ e, e = 1022 := ⟨_, rfl⟩
  obtain ⟨k, hk⟩ : ∃ k, k = 1074 := ⟨_, rfl⟩
  rw [← he, hx.toRat_eq, hy.toRat_eq, div_mul_div_comm, div_le_iff₀ (mul_pos unitsPerOne_cast_pos unitsPerOne_cast_pos),
    ← mul_assoc] at h
  refine (within_mul (fits_three_mul (k := e + k) (by omega)) hx.isFinite hy.isFinite ?_).isFinite
  rw [Nat.pow_add, ← Nat.mul_assoc, ← unitsPerOne_eq hk]
  exact_mod_cast h

/-!
### Quotients

Rounding is monotone, so a quotient does not pass a value that it is compared with.
-/

section div

variable (hx : IsUnsigned x) (hy : IsUnsigned y) (hne : y.magnitude ≠ 0) (hbound : IsUnsigned bound)

include hx hy hne in
theorem div_unsigned_cases :
    (IsUnsigned (x / y) ∧ (x / y).magnitude = roundUnits (x.magnitude * unitsPerOne) y.magnitude) ∨
      x / y = infinite false := by
  obtain ⟨u, hu, rfl⟩ := hx
  obtain ⟨v, hv, rfl⟩ := hy
  rw [magnitude_finite] at hne
  have hdiv : finite false u hu / finite false v hv = round false (u * unitsPerOne) v := by
    show div _ _ = _
    simp [div, hne]
  rw [hdiv, magnitude_finite, magnitude_finite]
  cases round_unsigned (u * unitsPerOne) v with
  | inr h => exact Or.inr h.right
  | inl h =>
    have hfinite := h.isFinite
    have hlt : (roundUnits (u * unitsPerOne) v).log2 < 2098 := by
      by_contra hge
      unfold round at hfinite
      rw [dif_neg hge] at hfinite
      cases hfinite
    rw [log2_lt_iff] at hlt
    refine Or.inl ⟨h, ?_⟩
    rw [magnitude, (round_spec hlt).right, natAbs_signed]

include hx hy hne hbound

theorem div_le_of_le (h : x.toRat ≤ bound.toRat * y.toRat) : (x / y).isFinite = true ∧ (x / y).le bound = true := by
  rw [hx.toRat_eq, hy.toRat_eq, hbound.toRat_eq, ← mul_div_assoc,
    div_le_div_iff_of_pos_right unitsPerOne_cast_pos, div_mul_eq_mul_div, le_div_iff₀ unitsPerOne_cast_pos] at h
  have hwithin := within_div (fits_magnitude bound) hx.isFinite hy.isFinite hne (by exact_mod_cast h)
  cases div_unsigned_cases hx hy hne with
  | inl hquotient =>
    refine ⟨hwithin.isFinite, ?_⟩
    rw [le_iff hwithin.isFinite hbound.isFinite, hquotient.left.units_eq, hbound.units_eq, Int.ofNat_le]
    exact hwithin.magnitude_le
  | inr hquotient =>
    rw [hquotient] at hwithin
    cases hwithin.isFinite

theorem le_div_of_le (h : bound.toRat * y.toRat ≤ x.toRat) : bound.le (x / y) = true := by
  rw [hx.toRat_eq, hy.toRat_eq, hbound.toRat_eq, ← mul_div_assoc,
    div_le_div_iff_of_pos_right unitsPerOne_cast_pos, div_mul_eq_mul_div, div_le_iff₀ unitsPerOne_cast_pos] at h
  cases div_unsigned_cases hx hy hne with
  | inl hquotient =>
    rw [le_iff hbound.isFinite hquotient.left.isFinite, hquotient.left.units_eq, hbound.units_eq, Int.ofNat_le,
      hquotient.right]
    exact le_roundUnits (by omega) (spareBits_dvd_magnitude bound) (by exact_mod_cast h)
  | inr hquotient =>
    obtain ⟨u, hu, rfl⟩ := hbound
    rw [hquotient]
    rfl

end div

/-!
### Accumulated errors
-/

structure Estimates (k : Nat) (x : Binary64) (v : ℚ) : Prop where
  isUnsigned : IsUnsigned x
  close : |x.toRat - v| ≤ k / 2 ^ 53 * v

namespace Estimates

variable {k : Nat} {v : ℚ}

theorem zero : Estimates 0 .zero 0 :=
  ⟨isUnsigned_zero, by simp [toRat]⟩

theorem nonneg (h : Estimates k x v) : 0 ≤ v := by
  by_contra hneg
  have hx := h.isUnsigned.toRat_nonneg
  have hbound : (k / 2 ^ 53 * v : ℚ) ≤ 0 := mul_nonpos_of_nonneg_of_nonpos (by positivity) (by linarith)
  have hclose := (abs_le.mp h.close).right
  linarith

theorem le_mul (h : Estimates k x v) (hk : k ≤ 2 ^ 50) : x.toRat ≤ 9 / 8 * v ∧ 7 / 8 * v ≤ x.toRat := by
  have heighth : (k / 2 ^ 53 * v : ℚ) ≤ 1 / 8 * v := by
    apply mul_le_mul_of_nonneg_right _ h.nonneg
    have hcast : (k : ℚ) ≤ 2 ^ 50 := by exact_mod_cast hk
    linarith
  obtain ⟨hlow, hhigh⟩ := abs_le.mp h.close
  constructor <;> linarith

theorem mono (h : Estimates k x v) (hle : k ≤ l) : Estimates l x v := by
  refine ⟨h.isUnsigned, le_trans h.close (mul_le_mul_of_nonneg_right ?_ h.nonneg)⟩
  have hcast : (k : ℚ) ≤ l := Nat.cast_le.mpr hle
  linarith

theorem self (h : IsUnsigned x) : Estimates 0 x x.toRat :=
  ⟨h, by simp⟩

theorem add (hx : Estimates k x v) (hy : Estimates k y w) (hk : k ≤ 2 ^ 50) (hfinite : (x + y).isFinite = true) :
    Estimates (k + 2) (x + y) (v + w) := by
  -- Each sum is rounded once more, which also covers what the errors so far add to the rounding.
  have hround := abs_toRat_add_sub_le hx.isUnsigned hy.isUnsigned hfinite
  have hxclose := hx.close
  have hyclose := hy.close
  have hv := hx.nonneg
  have hw := hy.nonneg
  obtain ⟨hxle, -⟩ := hx.le_mul hk
  obtain ⟨hyle, -⟩ := hy.le_mul hk
  refine ⟨hx.isUnsigned.add hy.isUnsigned hfinite, ?_⟩
  push_cast
  rw [abs_le] at *
  constructor <;> linarith

theorem isFinite_add (hx : Estimates k x v) (hy : Estimates k y w) (hk : k ≤ 2 ^ 50) (hle : v + w ≤ 2 ^ 1023) :
    (x + y).isFinite = true := by
  apply isFinite_add_of_le hx.isUnsigned hy.isUnsigned
  obtain ⟨hxle, -⟩ := hx.le_mul hk
  obtain ⟨hyle, -⟩ := hy.le_mul hk
  have hv := hx.nonneg
  have hw := hy.nonneg
  rw [pow_succ] at hle
  generalize (2 ^ 1022 : ℚ) = room at hle ⊢
  linarith

end Estimates

theorem estimates_mul_add_add {factor bound epsilon : Binary64} (h : Estimates k x v) (hk : k ≤ 2 ^ 21)
    (hfactor : IsUnsigned factor) (hbound : IsUnsigned bound) (hepsilon : IsUnsigned epsilon)
    (hnormal : 2 ^ 52 ≤ epsilon.magnitude)
    (hfinite : (x * factor + bound + epsilon).isFinite = true ∨
      v * factor.toRat + bound.toRat + epsilon.toRat ≤ 2 ^ 1023) :
    Estimates (2 ^ 22) (x * factor + bound + epsilon) (v * factor.toRat + bound.toRat + epsilon.toRat) := by
  -- A product with two more terms. The product may be subnormal, which a last term in the normal range makes
  -- up for.
  have hf := hfactor.toRat_nonneg
  have hb := hbound.toRat_nonneg
  have he := hepsilon.toRat_nonneg
  have hp : 0 ≤ v * factor.toRat := mul_nonneg h.nonneg hf
  have hclose : |x.toRat * factor.toRat - v * factor.toRat| ≤ v * factor.toRat / 2 ^ 32 := by
    rw [← sub_mul, abs_mul, abs_of_nonneg hf, mul_div_right_comm]
    apply mul_le_mul_of_nonneg_right _ hf
    refine le_trans h.close ?_
    have hcast : (k : ℚ) ≤ 2 ^ 21 := by exact_mod_cast hk
    have hscaled := mul_le_mul_of_nonneg_right hcast h.nonneg
    linarith
  have hhalf : (1 / 2 / unitsPerOne : ℚ) ≤ epsilon.toRat / 2 ^ 53 := by
    have hcast : (2 ^ 52 : ℚ) ≤ epsilon.magnitude := by exact_mod_cast hnormal
    rw [hepsilon.toRat_eq, div_right_comm (epsilon.magnitude : ℚ), div_le_div_iff_of_pos_right unitsPerOne_cast_pos]
    linarith
  rw [pow_succ] at hfinite
  have hproduct : (x * factor).isFinite = true := by
    cases hfinite with
    | inl hfinite => exact (isFinite_of_isFinite_add (isFinite_of_isFinite_add hfinite).left).left
    | inr hroom =>
      apply isFinite_mul_of_le h.isUnsigned hfactor
      generalize (2 ^ 1022 : ℚ) = room at hroom ⊢
      rw [abs_le] at hclose
      linarith
  have hproductRat := abs_toRat_mul_sub_le h.isUnsigned hfactor hproduct
  have hproductUnsigned := h.isUnsigned.mul hfactor hproduct
  generalize x * factor = product at *
  generalize x.toRat * factor.toRat = rounded at *
  generalize v * factor.toRat = exact at *
  have hsum : (product + bound).isFinite = true := by
    cases hfinite with
    | inl hfinite => exact (isFinite_of_isFinite_add hfinite).left
    | inr hroom =>
      apply isFinite_add_of_le hproductUnsigned hbound
      generalize (2 ^ 1022 : ℚ) = room at hroom ⊢
      rw [abs_le] at *
      linarith
  have hsumRat := abs_toRat_add_sub_le hproductUnsigned hbound hsum
  have hsumUnsigned := hproductUnsigned.add hbound hsum
  have htotal : (product + bound + epsilon).isFinite = true := by
    cases hfinite with
    | inl hfinite => exact hfinite
    | inr hroom =>
      apply isFinite_add_of_le hsumUnsigned hepsilon
      generalize (2 ^ 1022 : ℚ) = room at hroom ⊢
      rw [abs_le] at *
      linarith
  have htotalRat := abs_toRat_add_sub_le hsumUnsigned hepsilon htotal
  refine ⟨hsumUnsigned.add hepsilon htotal, ?_⟩
  clear hfinite
  push_cast
  rw [abs_le] at *
  constructor <;> linarith

end RowSweep.Binary64
