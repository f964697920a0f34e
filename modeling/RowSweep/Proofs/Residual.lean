import RowSweep.Residual
import RowSweep.Proofs.Summation

/-!
This module contains the verdict on a residual of zeros. The magnitudes that the residual of a system of integers is
compared with are added up without overflow, so nothing is left of the comparison.
-/

namespace RowSweep

open Binary64

attribute [local irreducible] unitsPerOne rangeEnd

namespace Binary64

theorem add_unsigned_of_infinite (hx : IsUnsigned x ∨ x = infinite false) (hy : IsUnsigned y) :
    IsUnsigned (x + y) ∨ x + y = infinite false := by
  cases hx with
  | inl hx => exact add_unsigned hx hy
  | inr hx =>
    obtain ⟨v, hv, rfl⟩ := hy
    rw [hx]
    exact Or.inr rfl

theorem isZero_div (hx : isZero x = true) (hy : IsUnsigned y ∨ y = infinite false) (hne : isZero y = false) :
    isZero (x / y) = true := by
  have hxfinite := isFinite_of_isZero hx
  cases hy with
  | inl hy =>
    have hmag := magnitude_ne_zero hy.isFinite hne
    have hwithin : Within 0 (x / y) := by
      apply within_div fits_zero hxfinite hy.isFinite hmag
      rw [(isZero_iff_magnitude hxfinite).mp hx]
      simp
    rw [isZero_iff_magnitude hwithin.isFinite]
    exact Nat.le_zero.mp hwithin.magnitude_le
  | inr hy =>
    obtain ⟨s, u, hu, rfl⟩ := exists_of_isFinite hxfinite
    rw [hy]
    rfl

end Binary64

section sums

variable {magnitudes : Summation} (hadds : magnitudes.AddsUp) (hfinite : magnitudes.StaysFinite n)

include hadds in
theorem Row.abs_absSum (row : Row n) :
    (row.absSum magnitudes).abs = row.absSum magnitudes := by
  apply (hadds (row.toList.map Binary64.abs)).abs_eq
  intro y hy
  obtain ⟨x, -, rfl⟩ := List.mem_map.mp (Multiset.mem_coe.mp hy)
  cases x <;> rfl

include hadds hfinite

theorem Row.isUnsigned_absSum {row : Row n} (hrow : ∀ j : Fin n, Within (2 ^ 53 * unitsPerOne) row[j]) :
    IsUnsigned (row.absSum magnitudes) := by
  have hsum : (row.absSum magnitudes).isFinite = true := by
    apply hfinite
    . simp
    . intro y hy
      obtain ⟨x, hx, rfl⟩ := List.mem_map.mp hy
      exact (forall_mem_toList.mpr hrow x hx).abs
  rw [← row.abs_absSum hadds]
  exact isUnsigned_abs hsum

namespace Grid

theorem isUnsigned_coefficientNorm {g : Grid m (n + 1)}
    (hg : ∀ (i : Fin m) (j : Fin (n + 1)), Within (2 ^ 53 * unitsPerOne) g[i][j]) :
    IsUnsigned (g.coefficientNorm magnitudes) := by
  have hrows : ∀ row ∈ g.toList, IsUnsigned ((Row.coefficients row).absSum magnitudes) := by
    intro row hrow
    obtain ⟨i, hi, rfl⟩ := List.mem_iff_getElem.mp hrow
    have him : i < m := by simpa using hi
    refine Row.isUnsigned_absSum hadds hfinite fun j => ?_
    have hcell := hg ⟨i, him⟩ j.castSucc
    simpa [Row.coefficients, getElem_fin] using hcell
  have hstart := isUnsigned_zero
  unfold coefficientNorm
  rw [← Vector.foldl_toList]
  generalize g.toList = rows at hrows
  generalize Binary64.zero = largest at hstart
  induction rows generalizing largest with
  | nil => exact hstart
  | cons row rows ih =>
    rw [List.foldl_cons]
    apply ih
    . exact fun row' hrow' => hrows row' (List.mem_cons_of_mem row hrow')
    . exact isUnsigned_max hstart (hrows row List.mem_cons_self)

end Grid

end sums

namespace Grid

variable {g : Grid m (n + 1)} {x : Row n} {epsilon : Binary64}

theorem isZero_relative {numerics : Numerics} (hadds : numerics.magnitudes.AddsUp)
    (hfinite : numerics.magnitudes.StaysFinite n)
    (hg : ∀ (i : Fin m) (j : Fin (n + 1)), Within (2 ^ 53 * unitsPerOne) g[i][j])
    (hx : ∀ j : Fin n, x[j].isFinite = true) (hepsilon : IsUnsigned epsilon)
    (hzero : ∀ i : Fin m, (g.residual x)[i].isZero = true) :
    (g.residualMetrics numerics x epsilon).relative.isZero = true := by
  have hlinf : (g.residual x).peak.isZero = true :=
    (Row.isZero_peak_iff fun i => isFinite_of_isZero (hzero i)).mpr hzero
  have hconstants : ∀ i : Fin m, g.constants[i].isFinite = true := by
    intro i
    have hcell := (hg i (Fin.last n)).isFinite
    simpa [constants, Row.constant, getElem_fin] using hcell
  have hdenominator := add_unsigned_of_infinite
    (add_unsigned_of_infinite (mul_unsigned (isUnsigned_coefficientNorm hadds hfinite hg) (Row.isUnsigned_peak hx))
      (Row.isUnsigned_peak hconstants)) hepsilon
  unfold residualMetrics denominator
  dsimp only
  split
  next => exact isZero_zero
  next hne =>
    rw [Bool.not_eq_true] at hne
    exact isZero_div hlinf hdenominator hne

end Grid

theorem ResidualBands.status?_of_isZero {bands : ResidualBands} {relative : Binary64}
    (hrelative : relative.isZero = true) (hpass : Binary64.zero.le bands.passMax = true) :
    bands.status? relative = some .pass := by
  obtain ⟨s, u, hu, rfl⟩ := exists_of_isFinite (isFinite_of_isZero hrelative)
  have hu0 : u = 0 := by simpa [isZero] using hrelative
  subst hu0
  have hle : (finite s 0 hu).le bands.passMax = true := by
    revert hpass
    cases bands.passMax <;> simp [le, zero]
  unfold status?
  simp [hle, isFinite]

theorem ResidualBands.status?_default {relative : Binary64} (hrelative : relative.isZero = true) :
    ResidualBands.default.status? relative = some .pass :=
  status?_of_isZero hrelative (by decide +kernel)

theorem ResidualBands.isUnsigned_epsilon_default : IsUnsigned ResidualBands.default.epsilon := by
  have habs : ResidualBands.default.epsilon = ResidualBands.default.epsilon.abs := by decide +kernel
  rw [habs]
  exact isUnsigned_abs (by decide +kernel)

end RowSweep
