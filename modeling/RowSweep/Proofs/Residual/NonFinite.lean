import RowSweep.Proofs.Binary64.NonFinite
import RowSweep.Proofs.Solver.Outcome
import RowSweep.Proofs.Sweep.Overflow

/-!
This module contains the verdict on a vector that is not finite. Nothing brings a sum or a product with an infinity
or a NaN back into the range, so the largest residual and what it is compared with are both beyond it, and their
quotient is NaN.
-/

namespace RowSweep

open Binary64

namespace Row

theorem isFinite_of_isFinite_residual {row : Row (n + 1)} {x : Row n} (h : (row.residual x).isFinite = true)
    (j : Fin n) : x[j].isFinite = true := by
  have hstep : ∀ (rest : Binary64) (j : Fin n), (rest - x[j] * row[j.castSucc]).isFinite = true →
      rest.isFinite = true ∧ x[j].isFinite = true := by
    intro rest j hj
    obtain ⟨hrest, hproduct⟩ := isFinite_of_isFinite_sub hj
    exact ⟨hrest, (isFinite_of_isFinite_mul hproduct).left⟩
  exact (forall_of_isFinite_foldl hstep h).right j (List.mem_finRange j)

end Row

namespace Grid

variable {g : Grid m (n + 1)} {x : Row n}

theorem getElem_residual (g : Grid m (n + 1)) (x : Row n) (i : Fin m) : (g.residual x)[i] = Row.residual g[i] x := by
  simp [residual, getElem_fin]

theorem relative_eq_nan (numerics : Numerics) (i : Fin m) {j : Fin n} (hj : x[j].isFinite = false)
    (epsilon : Binary64) :
    (g.residualMetrics numerics x epsilon).relative = nan := by
  -- One bad component is enough, wherever it is: it is multiplied into each row, even where the coefficient
  -- is zero.
  have hlinf : (g.residual x).peak.isFinite = false := by
    rw [← Bool.not_eq_true]
    intro hpeak
    have hrow := Row.isFinite_of_isFinite_peak hpeak i
    rw [getElem_residual] at hrow
    rw [Row.isFinite_of_isFinite_residual hrow j] at hj
    cases hj
  have hdenominator : (g.denominator numerics.magnitudes x epsilon).isFinite = false := by
    rw [← Bool.not_eq_true]
    intro hsum
    unfold denominator at hsum
    have hproduct := (isFinite_of_isFinite_add (isFinite_of_isFinite_add hsum).left).left
    have hpeak := (isFinite_of_isFinite_mul hproduct).right
    rw [Row.isFinite_of_isFinite_peak hpeak j] at hj
    cases hj
  have hzero : (g.denominator numerics.magnitudes x epsilon).isZero = false := by
    rw [← Bool.not_eq_true]
    intro hzero
    rw [isFinite_of_isZero hzero] at hdenominator
    cases hdenominator
  unfold residualMetrics
  simp only [hzero, Bool.false_eq_true, ↓reduceIte]
  exact div_eq_nan hlinf hdenominator

end Grid

theorem ResidualBands.status?_of_not_isFinite (bands : ResidualBands) {relative : Binary64}
    (h : relative.isFinite = false) : bands.status? relative = some .fail := by
  unfold status?
  simp [h]

theorem status_of_nonFinite :
    (∀ (numerics : Numerics) (g : Grid n (n + 1)) (x : Row n) (epsilon : Binary64) (bands : ResidualBands),
      (∃ j : Fin n, x[j].isFinite = false) →
        (g.residualMetrics numerics x epsilon).relative = .nan ∧
        bands.status? (g.residualMetrics numerics x epsilon).relative = some .fail) ∧
    ∀ (s : Solver n) (sol : Solution n), s.solve.outcome = .ok sol →
      sol.status = some .pass ∨ sol.status = some .degraded →
        ∃ x, sol.x = some x ∧ ∀ j : Fin n, x[j].isFinite = true := by
  have hfail : ∀ (numerics : Numerics) (g : Grid n (n + 1)) (x : Row n) (epsilon : Binary64) (bands : ResidualBands),
      (∃ j : Fin n, x[j].isFinite = false) →
        (g.residualMetrics numerics x epsilon).relative = .nan ∧
        bands.status? (g.residualMetrics numerics x epsilon).relative = some .fail := by
    intro numerics g x epsilon bands hx
    obtain ⟨j, hj⟩ := hx
    have hrelative := g.relative_eq_nan numerics j hj epsilon
    refine ⟨hrelative, bands.status?_of_not_isFinite ?_⟩
    rw [hrelative]
    rfl
  refine ⟨hfail, ?_⟩
  intro s sol hsol haccepted
  have hstatus := (Solver.rates_of_solve hsol).status_eq
  cases hx : sol.x with
  | none =>
    rw [hx] at hstatus
    simp [hstatus] at haccepted
  | some x =>
    rw [hx, Option.bind_some] at hstatus
    refine ⟨x, rfl, ?_⟩
    intro j
    rw [← Bool.not_eq_false]
    intro hj
    rw [hstatus, (hfail s.numerics s.given x _ s.thresholds.residual ⟨j, hj⟩).right] at haccepted
    simp at haccepted

def oneUnknown : Grid 1 2 :=
  #v[#v[.ofNat 2, .one]]

theorem status_of_oneUnknown :
    ResidualBands.default.status?
        (oneUnknown.residualMetrics .standard #v[.infinite false] ResidualBands.default.epsilon).relative = some .fail ∧
      ∃ system : LinearSystem, ∃ sol,
        (Solver.ofSystem system .default .standard Numerics.standard.estimator).solve.outcome = .ok sol ∧
        sol.status = some .pass ∧ ∃ x, sol.x = some x ∧ ∀ j : Fin system.size, x[j].isFinite = true := by
  let system : LinearSystem := ⟨1, oneUnknown, by decide, by decide +kernel⟩
  have hstatus : (Solver.ofSystem system .default .standard Numerics.standard.estimator).solve.outcome.map (·.status) =
      .ok (some .pass) := by
    decide +kernel
  constructor
  . exact (status_of_nonFinite.left .standard oneUnknown #v[.infinite false] _ ResidualBands.default ⟨0, rfl⟩).right
  . cases hsol : (Solver.ofSystem system .default .standard Numerics.standard.estimator).solve.outcome with
    | error e =>
      rw [hsol] at hstatus
      cases hstatus
    | ok sol =>
      rw [hsol] at hstatus
      have hpass : sol.status = some .pass := Except.ok.inj hstatus
      exact ⟨system, sol, hsol, hpass, status_of_nonFinite.right _ sol hsol (Or.inl hpass)⟩

end RowSweep
