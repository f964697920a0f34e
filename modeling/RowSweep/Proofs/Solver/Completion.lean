import RowSweep.Libraries.Standard
import RowSweep.Proofs.Except
import RowSweep.Proofs.Multipliers.Divisor
import RowSweep.Proofs.Solver.Kind
import RowSweep.Proofs.Sweep.Overflow
import RowSweep.Thresholds.Reader

/-!
This module contains the way from a document to a result. With thresholds that have been read from an artifact a solve
only fails where the sweep needs a divisor beyond the range.
-/

namespace RowSweep

open Binary64

attribute [local irreducible] unitsPerOne rangeEnd

namespace Thresholds

theorem eqv_of_residualBands {contract : Block} {bands : ResidualBands} (h : residualBands contract = .ok bands) :
    bands.failMinExclusive.eqv bands.degradedMax = true := by
  unfold residualBands at h
  simp only [bind_eq_ok_iff] at h
  obtain ⟨block, -, status, -, epsilon, -, passMax, -, degradedMax, -, failMinExclusive, -, h⟩ := h
  split at h
  next => cases h
  next =>
    split at h
    next => cases h
    next =>
      split at h
      next => cases h
      next hgap =>
        cases h
        simpa using hgap

theorem eqv_of_ofDocument {settings : Document} {artifact : String} {thresholds : Thresholds}
    (h : ofDocument settings artifact = .ok thresholds) :
    thresholds.residual.failMinExclusive.eqv thresholds.residual.degradedMax = true := by
  cases settings with
  | mapping root =>
    unfold ofDocument at h
    simp only [bind_eq_ok_iff] at h
    obtain ⟨contract, -, sweep, -, residual, hresidual, condition, -, defaults, -, expected, -, h⟩ := h
    cases h
    exact eqv_of_residualBands hresidual
  | _ => cases h

end Thresholds

namespace Solver

theorem ofDocument_eq_ok {lib : Libraries} {document : Document} {thresholds : Thresholds} {expected : Option Int}
    {given : Option Estimator} {estimator : Estimator} {system : LinearSystem}
    (hestimator : resolveEstimator lib.numerics thresholds given = .ok estimator)
    (hsystem : LinearSystem.ofDocument lib.complaint document (expected.or thresholds.expectedUnknowns) =
      .ok system) :
    ofDocument lib document thresholds expected given =
      .ok ⟨system.size, ofSystem system thresholds lib.numerics estimator⟩ := by
  unfold ofDocument
  dsimp only
  rw [hsystem, hestimator]
  rfl

theorem resolveEstimator_eq_ok {numerics : Numerics} {thresholds : Thresholds} (given : Option Estimator)
    (h : thresholds.condition.estimatorId = ConditionPolicy.builtinEstimatorId) :
    resolveEstimator numerics thresholds given = .ok (given.getD numerics.estimator) := by
  cases given with
  | none => exact if_pos h
  | some estimator => rfl

theorem outcome_of_divisorOverflow {s : Solver n} (hfresh : s.consumed = false)
    (hended : (reduce s.thresholds.sweep s.grid).sweep.ended = some .divisorOverflow) :
    s.solve.outcome = .error .divisorOverflow := by
  unfold solve
  rw [hfresh, if_neg Bool.false_ne_true]
  simp only [hended]

theorem outcome_cases {s : Solver n} (hfresh : s.consumed = false)
    (hbands : s.thresholds.residual.failMinExclusive.eqv s.thresholds.residual.degradedMax = true) :
    ((∃ sol, s.solve.outcome = .ok sol) ∧
        (reduce s.thresholds.sweep s.grid).sweep.ended ≠ some .divisorOverflow) ∨
      (s.solve.outcome = .error .divisorOverflow ∧
        (reduce s.thresholds.sweep s.grid).sweep.ended = some .divisorOverflow) := by
  by_cases hended : (reduce s.thresholds.sweep s.grid).sweep.ended = some .divisorOverflow
  . exact Or.inr ⟨outcome_of_divisorOverflow hfresh hended, hended⟩
  . exact Or.inl ⟨s.exists_outcome hfresh hended hbands, hended⟩

end Solver

theorem outcome_of_document (lib : Libraries) (settings document : Document) (artifact : String)
    (expected : Option Int) (given : Option Estimator) (thresholds : Thresholds) (system : LinearSystem)
    (hthresholds : Thresholds.ofDocument settings artifact = .ok thresholds)
    (hestimator : thresholds.condition.estimatorId = ConditionPolicy.builtinEstimatorId)
    (hsystem : LinearSystem.ofDocument lib.complaint document (expected.or thresholds.expectedUnknowns) =
      .ok system) :
    let s := Solver.ofSystem system thresholds lib.numerics (given.getD lib.numerics.estimator)
    let g := system.grid.orderRows.grid
    let h := Nat.le_refl system.size
    Solver.ofDocument lib document thresholds expected given = .ok ⟨system.size, s⟩ ∧
    ((∃ sol, s.solve.outcome = .ok sol) ↔
      ∀ (c : Fin system.size) (r : Nat) (hr : r + 1 < system.size), Sweep.Reaches thresholds.sweep g h c r hr →
        ∀ row, Sweep.mergedAt? thresholds.sweep g h c r hr = some row → ¬ row.IsAtTop) ∧
    (∀ e, s.solve.outcome = .error e → e = .divisorOverflow) ∧
    (∀ (c : Fin system.size) (r : Nat) (hr : r + 1 < system.size), Sweep.Reaches thresholds.sweep g h c r hr →
      ∀ row, Sweep.mergedAt? thresholds.sweep g h c r hr = some row →
        let grid := (Sweep.before thresholds.sweep g h c r (Nat.lt_of_succ_lt hr)).grid
        let upper := grid[r][c.castSucc]
        let lower := grid[r + 1][c.castSucc]
        (Multipliers.ofEntries? thresholds.sweep.integerRatio upper lower).isSome = true ∧
        (Multipliers.ofEntries? thresholds.sweep.integerRatio lower upper).isSome = true ∧
        (∀ i j, upper.exactInteger? = some i → lower.exactInteger? = some j →
          commonDivisor i.natAbs j.natAbs = .ok (Nat.gcd i.natAbs j.natAbs)) ∧
        (∀ xs, row.peak.le exactLimit = true → row.integers? = some xs →
          Row.contentByDivision xs = .ok (Row.content xs))) ∧
    (system.grid.IsBounded → ∃ sol, s.solve.outcome = .ok sol) := by
  intro s g h
  have hbands := Thresholds.eqv_of_ofDocument hthresholds
  have hcases := Solver.outcome_cases (s := s) rfl hbands
  have hended := Sweep.ended_ne_divisorOverflow_iff thresholds.sweep g h
  change (Solver.reduce s.thresholds.sweep s.grid).sweep.ended ≠ _ ↔ _ at hended
  refine ⟨Solver.ofDocument_eq_ok (Solver.resolveEstimator_eq_ok given hestimator) hsystem, ?_, ?_, ?_, ?_⟩
  . rw [← hended]
    cases hcases with
    | inl hok => exact iff_of_true hok.left hok.right
    | inr herror =>
      refine iff_of_false ?_ (not_not.mpr herror.right)
      intro hex
      obtain ⟨sol, hsol⟩ := hex
      rw [herror.left] at hsol
      cases hsol
  . intro e he
    cases hcases with
    | inl hok =>
      obtain ⟨sol, hsol⟩ := hok.left
      rw [hsol] at he
      cases he
    | inr herror =>
      rw [herror.left] at he
      cases he
      rfl
  . intro c r hr reached row hrow
    obtain ⟨hupper, hlower⟩ := Step.isZero_of_merged? (Nat.lt_of_succ_lt hr) hrow
    refine ⟨?_, ?_, ?_, ?_⟩
    . simp [Multipliers.ofEntries?, hupper, hlower]
    . simp [Multipliers.ofEntries?, hupper, hlower]
    . exact fun i j _ hj => commonDivisor_of_exactInteger? hj i
    . exact fun xs hpeak hxs => Row.contentByDivision_eq hpeak hxs
  . intro hbounded
    exact s.exists_outcome_of_ended rfl (Sweep.ended_of_isBounded thresholds.sweep h hbounded.orderRows) hbands

def defaultSettings : Document :=
  .mapping [
    ("numeric_contract", .mapping [
      ("elimination", .mapping [
        ("zero_snap_relative", .real Thresholds.default.sweep.zeroSnap),
        ("integer_ratio_enabled", .boolean true),
        ("pairwise_pivoting_enabled", .boolean true)]),
      ("residual", .mapping [
        ("relative_epsilon", .real ResidualBands.default.epsilon),
        ("status_bands", .mapping [
          ("pass_max", .real ResidualBands.default.passMax),
          ("degraded_max", .real ResidualBands.default.degradedMax),
          ("fail_min_exclusive", .real ResidualBands.default.failMinExclusive)])]),
      ("condition_indicator", .mapping [
        ("estimator", .mapping [
          ("id", .text ConditionPolicy.builtinEstimatorId),
          ("unavailable_policy", .mapping [
            ("warning_code", .text Thresholds.default.condition.unavailableCode)])]),
        ("bands", .mapping [
          ("warning_code", .text Thresholds.default.condition.illConditionedCode),
          ("warn_max", .real Thresholds.default.condition.warnMax)])])]),
    ("solver_defaults", .mapping [("expected_unknowns", .null)])]

def cornerDocument (k : Int) : Document :=
  .sequence [.sequence [.integer 1, .real (.twoPow k), .integer 1], .sequence [.integer 1, .integer 0, .integer 1]]

def cornerGrid (k : Int) : Grid 2 3 :=
  #v[#v[.one, .twoPow k, .one], #v[.one, .zero, .one]]

theorem ofDocument_eq_ok_of_toOption {complaint : Document → String} {document : Document} {expected : Option Int}
    {system : LinearSystem}
    (h : (LinearSystem.ofDocument complaint document expected).toOption.map
      (fun s => (⟨s.size, s.grid⟩ : Σ n, Grid n (n + 1))) = some ⟨system.size, system.grid⟩) :
    LinearSystem.ofDocument complaint document expected = .ok system := by
  cases hread : LinearSystem.ofDocument complaint document expected with
  | error e =>
    rw [hread] at h
    cases h
  | ok found =>
    rw [hread] at h
    cases found
    cases system
    cases h
    rfl

theorem outcome_of_cornerDocument :
    ∃ system, Thresholds.ofDocument defaultSettings "thresholds_v1.yaml" = .ok .default ∧
      LinearSystem.ofDocument Libraries.standard.complaint (cornerDocument 1022) none = .ok system ∧
      ¬ system.grid.IsBounded ∧
      ∃ sol, (Solver.ofSystem system .default .standard Numerics.standard.estimator).solve.outcome = .ok sol := by
  have hthresholds : Thresholds.ofDocument defaultSettings "thresholds_v1.yaml" = .ok .default := by decide +kernel
  let system : LinearSystem := ⟨2, cornerGrid 1022, by decide, by decide +kernel⟩
  have hsystem : LinearSystem.ofDocument Libraries.standard.complaint (cornerDocument 1022) none = .ok system :=
    ofDocument_eq_ok_of_toOption (by decide +kernel)
  obtain ⟨-, hresult, -⟩ := outcome_of_document .standard defaultSettings (cornerDocument 1022)
    "thresholds_v1.yaml" none none .default system hthresholds rfl hsystem
  have hrows : ∀ c : Fin 2, ∀ row ∈ Sweep.mergedAt? Thresholds.default.sweep (cornerGrid 1022).orderRows.grid
      (Nat.le_refl 2) c 0 (by decide), ¬ Row.IsAtTop row := by
    decide +kernel
  refine ⟨system, hthresholds, hsystem, by decide +kernel, hresult.mpr ?_⟩
  intro c r hr _ row hrow
  obtain rfl : r = 0 := by
    change r + 1 < 2 at hr
    omega
  exact hrows c row hrow

theorem not_outcome_of_cornerDocument :
    ∃ system, Thresholds.ofDocument defaultSettings "thresholds_v1.yaml" = .ok .default ∧
      LinearSystem.ofDocument Libraries.standard.complaint (cornerDocument 1023) none = .ok system ∧
      Solver.ofDocument .standard (cornerDocument 1023) .default none none =
        .ok ⟨system.size, Solver.ofSystem system .default .standard Numerics.standard.estimator⟩ ∧
      ∀ sol, (Solver.ofSystem system .default .standard Numerics.standard.estimator).solve.outcome ≠ .ok sol := by
  -- With `2 ^ 1023` in its place there is no result.
  let system : LinearSystem := ⟨2, cornerGrid 1023, by decide, by decide +kernel⟩
  have hsystem : LinearSystem.ofDocument Libraries.standard.complaint (cornerDocument 1023) none = .ok system :=
    ofDocument_eq_ok_of_toOption (by decide +kernel)
  refine ⟨system, by decide +kernel, hsystem,
    Solver.ofDocument_eq_ok (Solver.resolveEstimator_eq_ok none rfl) hsystem, ?_⟩
  intro sol hsol
  have hended : (Solver.reduce Thresholds.default.sweep (cornerGrid 1023)).sweep.ended = some .divisorOverflow := by
    decide +kernel
  have houtcome := Solver.outcome_of_divisorOverflow
    (s := Solver.ofSystem system .default .standard Numerics.standard.estimator) rfl hended
  rw [houtcome] at hsol
  cases hsol

end RowSweep
