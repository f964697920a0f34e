import RowSweep.LinearSystem
import RowSweep.Proofs.Residual.NonFinite
import RowSweep.Proofs.Residual.Norms

/-!
This module contains the verdict on a residual with the default bands, against the relative residual without rounding.
It is right with a factor of two to spare, unless the norms overflow: an infinite one hides every residual, and an
infinite one times zero rejects every solution.
-/

namespace RowSweep

open Binary64

attribute [local irreducible] unitsPerOne rangeEnd

namespace ResidualBands

theorem status?_default_of_twoPow_le {relative : Binary64} (h : (twoPow (-19)).le relative = true) :
    ResidualBands.default.status? relative = some .fail := by
  cases hfinite : relative.isFinite with
  | false => exact status?_of_not_isFinite _ hfinite
  | true =>
    have hbelow : ∀ limit : Binary64, limit.isFinite = true → limit.lt (twoPow (-19)) = true →
        limit.lt relative = true ∧ relative.le limit = false := by
      intro limit hlimit hlt
      have hpow := (twoPow_spec (k := -19) (by decide) (by decide)).left
      rw [le_iff hpow hfinite] at h
      rw [lt_iff hlimit hpow] at hlt
      rw [lt_iff hlimit hfinite, ← Bool.not_eq_true, le_iff hfinite hlimit]
      omega
    have hpass := hbelow ResidualBands.default.passMax (by decide +kernel) (by decide +kernel)
    have hdegraded := hbelow ResidualBands.default.degradedMax (by decide +kernel) (by decide +kernel)
    unfold status?
    rw [hfinite, hpass.right, hdegraded.right]
    have hfail : ResidualBands.default.failMinExclusive = ResidualBands.default.degradedMax := rfl
    rw [hfail, hdegraded.left]
    rfl

theorem status?_default_of_le_twoPow {relative : Binary64} (hfinite : relative.isFinite = true)
    (h : relative.le (twoPow (-30)) = true) : ResidualBands.default.status? relative = some .pass := by
  have hpow := (twoPow_spec (k := -30) (by decide) (by decide)).left
  have hpass : ResidualBands.default.passMax.isFinite = true := by decide +kernel
  have hlimit : (twoPow (-30)).le ResidualBands.default.passMax = true := by decide +kernel
  have hle : relative.le ResidualBands.default.passMax = true := by
    rw [le_iff hpow hpass] at hlimit
    rw [le_iff hfinite hpow] at h
    rw [le_iff hfinite hpass]
    omega
  unfold status?
  rw [hfinite, hle]
  rfl

theorem twoPow_le_degradedMax :
    (twoPow (-19)).toRat * (1 + 1 / 2 ^ 31) ≤ 2 * ResidualBands.default.degradedMax.toRat := by
  decide +kernel

theorem passMax_le_twoPow :
    ResidualBands.default.passMax.toRat / 2 ≤ (twoPow (-30)).toRat * (1 - 1 / 2 ^ 31) := by
  decide +kernel

end ResidualBands

namespace Grid

def exactRelative (g : Grid m (n + 1)) (x : Row n) (epsilon : Binary64) : ℚ :=
  (maxAbs fun i : Fin m => (g.residual x)[i].toRat) / g.exactDenominator x epsilon

variable {g : Grid m (n + 1)} {x : Row n} {epsilon : Binary64} {numerics : Numerics}

theorem relative_eq (hzero : (g.denominator numerics.magnitudes x epsilon).isZero = false) :
    (g.residualMetrics numerics x epsilon).relative =
      (g.residual x).peak / g.denominator numerics.magnitudes x epsilon := by
  unfold residualMetrics
  simp only [hzero, Bool.false_eq_true, ↓reduceIte]

theorem relative_eq_nan_of_nan (h : g.denominator numerics.magnitudes x epsilon = .nan) :
    (g.residualMetrics numerics x epsilon).relative = .nan := by
  rw [relative_eq (by rw [h]; rfl), h]
  cases (g.residual x).peak <;> rfl

section finite

variable (hresidual : ∀ i : Fin m, (g.residual x)[i].isFinite = true)

include hresidual

theorem isZero_relative_of_infinite (h : g.denominator numerics.magnitudes x epsilon = .infinite false) :
    (g.residualMetrics numerics x epsilon).relative.isZero = true := by
  obtain ⟨s, u, hu, hpeak⟩ := exists_of_isFinite (Row.isFinite_peak hresidual)
  rw [relative_eq (by rw [h]; rfl), h, hpeak]
  rfl

variable (hg : ∀ (i : Fin m) (j : Fin (n + 1)), g[i][j].isFinite = true) (hn : n ≤ 2 ^ 20)
variable (hx : ∀ j : Fin n, x[j].isFinite = true) (hadds : numerics.magnitudes.AddsUp)

include hg hn hx hadds

theorem status?_of_isFinite_denominator
    (h : (g.denominator numerics.magnitudes x ResidualBands.default.epsilon).isFinite = true) :
    (2 * ResidualBands.default.degradedMax.toRat < g.exactRelative x ResidualBands.default.epsilon →
      ResidualBands.default.status? (g.residualMetrics numerics x ResidualBands.default.epsilon).relative =
        some .fail) ∧
    (g.exactRelative x ResidualBands.default.epsilon ≤ ResidualBands.default.passMax.toRat / 2 →
      ResidualBands.default.status? (g.residualMetrics numerics x ResidualBands.default.epsilon).relative =
        some .pass) := by
  -- Without overflow the norms are off by so little that the quotient stays on the side of the powers of two
  -- where it is.
  have hepsilon := ResidualBands.isUnsigned_epsilon_default
  have hnormal : 2 ^ 52 ≤ ResidualBands.default.epsilon.magnitude := by decide +kernel
  have hestimate := estimates_denominator hadds hg hn hx hepsilon hnormal (Or.inl h)
  have hpeak := Row.isUnsigned_peak hresidual
  have hexactPos : 0 < g.exactDenominator x ResidualBands.default.epsilon := by
    have hpos : 0 < ResidualBands.default.epsilon.toRat := by
      rw [hepsilon.toRat_eq]
      exact div_pos (Nat.cast_pos.mpr (by omega)) unitsPerOne_cast_pos
    have hnorm : 0 ≤ g.exactNorm * maxAbs fun j : Fin n => x[j].toRat :=
      mul_nonneg (maxAbs_nonneg _) (maxAbs_nonneg _)
    have hconstants := maxAbs_nonneg fun i : Fin m => g[i][Fin.last n].toRat
    unfold exactDenominator
    linarith
  have hclose := abs_le.mp hestimate.close
  have hunsigned := hestimate.isUnsigned
  have hpos : 0 < (g.denominator numerics.magnitudes x ResidualBands.default.epsilon).toRat := by
    push_cast at hclose
    linarith
  have hne : (g.denominator numerics.magnitudes x ResidualBands.default.epsilon).magnitude ≠ 0 := by
    intro hzero
    rw [hunsigned.toRat_eq, hzero] at hpos
    simp at hpos
  have hzero : (g.denominator numerics.magnitudes x ResidualBands.default.epsilon).isZero = false := by
    rw [← Bool.not_eq_true, isZero_iff_magnitude h]
    exact hne
  rw [relative_eq hzero]
  unfold exactRelative
  rw [← Row.toRat_peak hresidual, lt_div_iff₀ hexactPos, div_le_iff₀ hexactPos]
  generalize g.denominator numerics.magnitudes x ResidualBands.default.epsilon = denominator at *
  generalize g.exactDenominator x ResidualBands.default.epsilon = exact at *
  push_cast at hclose
  constructor
  . intro hfail
    apply ResidualBands.status?_default_of_twoPow_le
    have hbound := isUnsigned_twoPow (k := -19) (by decide) (by decide)
    apply le_div_of_le hpeak hunsigned hne hbound
    have hmargin := mul_le_mul_of_nonneg_right ResidualBands.twoPow_le_degradedMax hexactPos.le
    have hscaled := mul_le_mul_of_nonneg_left hclose.right hbound.toRat_nonneg
    linarith
  . intro hpass
    have hbound := isUnsigned_twoPow (k := -30) (by decide) (by decide)
    have hmargin := mul_le_mul_of_nonneg_right ResidualBands.passMax_le_twoPow hexactPos.le
    have hscaled := mul_le_mul_of_nonneg_left hclose.left hbound.toRat_nonneg
    obtain ⟨hfinite, hle⟩ := div_le_of_le hpeak hunsigned hne hbound (by linarith)
    exact ResidualBands.status?_default_of_le_twoPow hfinite hle

end finite

end Grid

theorem LinearSystem.isFinite_cell (system : LinearSystem) (i : Fin system.size) (j : Fin (system.size + 1)) :
    system.grid[i][j].isFinite = true := by
  have hgrid := system.isFinite
  unfold Grid.isFinite Row.isFinite at hgrid
  rw [Vector.all_eq_true] at hgrid
  have hrow := hgrid i i.isLt
  rw [Vector.all_eq_true] at hrow
  exact hrow j j.isLt

theorem status_iff_of_residual (system : LinearSystem) (numerics : Numerics)
    (hadds : numerics.magnitudes.AddsUp) (x : Row system.size) (hsize : system.size ≤ 2 ^ 20)
    (hx : ∀ j : Fin system.size, x[j].isFinite = true)
    (hresidual : ∀ i : Fin system.size, (system.grid.residual x)[i].isFinite = true) :
    let bands := ResidualBands.default
    let q := system.grid.exactRelative x bands.epsilon
    let status := bands.status? (system.grid.residualMetrics numerics x bands.epsilon).relative
    let denominator := system.grid.denominator numerics.magnitudes x bands.epsilon
    ((2 * bands.degradedMax.toRat < q → status = some .fail) ∧ (q ≤ bands.passMax.toRat / 2 → status = some .pass) ↔
      denominator.isFinite = true ∨ (denominator = .infinite false ∧ q ≤ 2 * bands.degradedMax.toRat) ∨
        (denominator = .nan ∧ bands.passMax.toRat / 2 < q)) ∧
    (system.grid.exactNorm ≤ 2 ^ 1023 → system.grid.exactDenominator x bands.epsilon ≤ 2 ^ 1023 →
      denominator.isFinite = true) := by
  intro bands q status denominator
  have hepsilon := ResidualBands.isUnsigned_epsilon_default
  constructor
  . rcases system.grid.denominator_cases hadds hx hepsilon with hfinite | hinfinite | hnan
    . refine iff_of_true ?_ (Or.inl hfinite)
      exact Grid.status?_of_isFinite_denominator hresidual system.isFinite_cell hsize hx hadds hfinite
    . have hpass : status = some .pass :=
        ResidualBands.status?_default (Grid.isZero_relative_of_infinite hresidual hinfinite)
      have hdenominator : denominator = .infinite false := hinfinite
      rw [hpass, hdenominator]
      simp [isFinite]
    . have hfail : status = some .fail := by
        apply ResidualBands.status?_of_not_isFinite
        rw [Grid.relative_eq_nan_of_nan hnan]
        rfl
      have hdenominator : denominator = .nan := hnan
      rw [hfail, hdenominator]
      simp [isFinite]
  . intro hnorm hexact
    have hnormal : 2 ^ 52 ≤ bands.epsilon.magnitude := by decide +kernel
    exact (Grid.estimates_denominator hadds system.isFinite_cell hsize hx hepsilon hnormal
      (Or.inr ⟨hnorm, hexact⟩)).isUnsigned.isFinite

theorem status_of_wrongUnknown :
    ∃ (system : LinearSystem) (x : Row system.size), system.size ≤ 2 ^ 20 ∧
      2 * ResidualBands.default.degradedMax.toRat <
        system.grid.exactRelative x ResidualBands.default.epsilon ∧
      ResidualBands.default.status? (system.grid.residualMetrics .standard x ResidualBands.default.epsilon).relative =
        some .fail := by
  let system : LinearSystem := ⟨1, oneUnknown, by decide, by decide +kernel⟩
  let x : Row system.size := #v[.ofNat 2]
  have hx : ∀ j : Fin system.size, x[j].isFinite = true := by
    show ∀ j : Fin 1, (#v[Binary64.ofNat 2])[j].isFinite = true
    decide +kernel
  have hresidual : ∀ i : Fin system.size, (system.grid.residual x)[i].isFinite = true := by
    show ∀ i : Fin 1, (oneUnknown.residual #v[.ofNat 2])[i].isFinite = true
    decide +kernel
  have hq : 2 * ResidualBands.default.degradedMax.toRat <
      system.grid.exactRelative x ResidualBands.default.epsilon := by
    show 2 * ResidualBands.default.degradedMax.toRat <
      oneUnknown.exactRelative #v[.ofNat 2] ResidualBands.default.epsilon
    decide +kernel
  have hfinite : (system.grid.denominator .pairwise x ResidualBands.default.epsilon).isFinite = true := by
    decide +kernel
  have hverdict :=
    (status_iff_of_residual system .standard Summation.addsUp_pairwise x (by decide) hx hresidual).left.mpr
      (Or.inl hfinite)
  exact ⟨system, x, by decide, hq, hverdict.left hq⟩

def steepRow (c d : Binary64) : Grid 2 3 :=
  let steep := (Decimal.mk 1 308).toBinary64 false
  #v[#v[steep, steep, c], #v[.zero, .one, d]]

def tinyTerm : Binary64 :=
  (Decimal.mk 1 (-301)).toBinary64 false

theorem not_status_of_steepRow :
    ((steepRow (.ofNat 10000000) (-tinyTerm)).isFinite = true ∧
      (∀ i : Fin 2, ((steepRow (.ofNat 10000000) (-tinyTerm)).residual #v[tinyTerm, -tinyTerm])[i].isFinite = true) ∧
      2 * ResidualBands.default.degradedMax.toRat <
        (steepRow (.ofNat 10000000) (-tinyTerm)).exactRelative #v[tinyTerm, -tinyTerm] ResidualBands.default.epsilon ∧
      ResidualBands.default.status? ((steepRow (.ofNat 10000000) (-tinyTerm)).residualMetrics .standard
        #v[tinyTerm, -tinyTerm] ResidualBands.default.epsilon).relative = some .pass) ∧
    ((steepRow .zero .zero).isFinite = true ∧
      (steepRow .zero .zero).exactRelative #v[.zero, .zero] ResidualBands.default.epsilon = 0 ∧
      ResidualBands.default.status? ((steepRow .zero .zero).residualMetrics .standard #v[.zero, .zero]
        ResidualBands.default.epsilon).relative = some .fail) := by
  -- The sum of the magnitudes in the first row overflows. A residual of a third of what met in the system
  -- passes, and the solution zero, which leaves no residual at all, fails.
  refine ⟨⟨?_, ?_, ?_, ?_⟩, ?_, ?_, ?_⟩ <;> decide +kernel

end RowSweep
