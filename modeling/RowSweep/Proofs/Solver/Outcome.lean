import RowSweep.Proofs.BackSubstitution
import RowSweep.Proofs.Binary64.Units
import RowSweep.Solver

/-!
This module contains the ways in which a solve can end. Each result is described by the reduction of the
working grid and by how the solution was read off it.
-/

namespace RowSweep

theorem ResidualBands.status?_ne_none {bands : ResidualBands}
    (h : bands.failMinExclusive.eqv bands.degradedMax = true) (relative : Binary64) :
    bands.status? relative ≠ none := by
  unfold status?
  split
  next => exact Option.some_ne_none _
  next hfinite =>
    split
    next => exact Option.some_ne_none _
    next =>
      split
      next => exact Option.some_ne_none _
      next hdegraded =>
        rw [Binary64.lt_of_eqv (by simpa using hfinite) (by simpa using hdegraded) h]
        exact Option.some_ne_none _

namespace Solver

theorem readSolution_of_hasFullPivots {products : Summation} {g : Grid n (n + 1)}
    (h : g.hasFullPivots (Nat.le_refl n) = true) :
    readSolution products g = (g.backSubstitute products (Nat.le_refl n), none, []) := by
  unfold readSolution
  simp [h]

theorem readSolution_of_not_hasFullPivots {products : Summation} {g : Grid n (n + 1)}
    (h : g.hasFullPivots (Nat.le_refl n) = false) :
    readSolution products g = ((Basis.ofGrid g).particularSolution g, some (Basis.ofGrid g),
      .missingPivot :: duplicateNotices g) := by
  unfold readSolution
  simp [h]

theorem exists_readSolution (products : Summation) (g : Grid n (n + 1)) :
    ∃ x, (readSolution products g).1 = .ok x := by
  cases hfull : g.hasFullPivots (Nat.le_refl n) with
  | true =>
    rw [readSolution_of_hasFullPivots hfull]
    exact Grid.exists_backSubstitute products hfull
  | false =>
    rw [readSolution_of_not_hasFullPivots hfull]
    exact Basis.exists_particularSolution g

inductive Concludes (s : Solver n) : Except SolveError (Solution n) → Prop where
  | consumed (used : s.consumed = true) : Concludes s (.error .consumed)
  | divisorOverflow (ended : (reduce s.thresholds.sweep s.grid).sweep.ended = some .divisorOverflow) :
      Concludes s (.error .divisorOverflow)
  | bandGap (gap : s.thresholds.residual.status? relative = none) : Concludes s (.error .bandGap)
  | solved (ended : (reduce s.thresholds.sweep s.grid).sweep.ended ≠ some .divisorOverflow)
      (consistent : (reduce s.thresholds.sweep s.grid).grid.isConsistent = true)
      (grid_eq : sol.grid = (reduce s.thresholds.sweep s.grid).grid)
      (sweep_eq : sol.sweep = (reduce s.thresholds.sweep s.grid).sweep.summary)
      (consistent_eq : sol.consistent = true)
      (basis_eq : sol.basis = (readSolution s.numerics.products (reduce s.thresholds.sweep s.grid).grid).2.1)
      (kind_eq : sol.kind = if sol.basis.isSome then .singular else .unique) : Concludes s (.ok sol)
  | inconsistent (ended : (reduce s.thresholds.sweep s.grid).sweep.ended ≠ some .divisorOverflow)
      (consistent : (reduce s.thresholds.sweep s.grid).grid.isConsistent = false)
      (grid_eq : sol.grid = (reduce s.thresholds.sweep s.grid).grid)
      (sweep_eq : sol.sweep = (reduce s.thresholds.sweep s.grid).sweep.summary)
      (consistent_eq : sol.consistent = false) (basis_eq : sol.basis = none)
      (kind_eq : sol.kind = .inconsistent) : Concludes s (.ok sol)

theorem concludes_solve (s : Solver n) : s.Concludes s.solve.outcome := by
  unfold solve
  split
  next hused => exact Concludes.consumed hused
  next =>
    dsimp only
    split
    next hended => exact Concludes.divisorOverflow hended
    next hended =>
      split
      next hconsistent =>
        split
        next hread =>
          obtain ⟨x, hx⟩ := exists_readSolution s.numerics.products (reduce s.thresholds.sweep s.grid).grid
          rw [hx] at hread
          cases hread
        next =>
          split
          next hgap => exact Concludes.bandGap hgap
          next => exact Concludes.solved hended hconsistent rfl rfl rfl rfl rfl
      next hconsistent =>
        rw [Bool.not_eq_true] at hconsistent
        exact Concludes.inconsistent hended hconsistent rfl rfl rfl rfl rfl

theorem kind_eq_of_solve {s : Solver n} (h : s.solve.outcome = .ok sol) :
    sol.kind = if sol.grid.isConsistent then
        if sol.grid.hasFullPivots (Nat.le_refl n) then .unique else .singular
      else .inconsistent := by
  have hconcludes := s.concludes_solve
  rw [h] at hconcludes
  cases hconcludes with
  | solved ended consistent grid_eq sweep_eq consistent_eq basis_eq kind_eq =>
    rw [← grid_eq] at basis_eq consistent
    rw [kind_eq, basis_eq, if_pos consistent]
    cases hfull : sol.grid.hasFullPivots (Nat.le_refl n) with
    | true => simp [readSolution_of_hasFullPivots hfull]
    | false => simp [readSolution_of_not_hasFullPivots hfull]
  | inconsistent ended consistent grid_eq sweep_eq consistent_eq basis_eq kind_eq =>
    rw [← grid_eq] at consistent
    rw [kind_eq, consistent]
    rfl

theorem grid_of_solve {s : Solver n} (h : s.solve.outcome = .ok sol) :
    sol.grid = (reduce s.thresholds.sweep s.grid).grid ∧
      sol.sweep = (reduce s.thresholds.sweep s.grid).sweep.summary := by
  have hconcludes := s.concludes_solve
  rw [h] at hconcludes
  cases hconcludes with
  | solved ended consistent grid_eq sweep_eq consistent_eq basis_eq kind_eq => exact ⟨grid_eq, sweep_eq⟩
  | inconsistent ended consistent grid_eq sweep_eq consistent_eq basis_eq kind_eq => exact ⟨grid_eq, sweep_eq⟩

structure Rates (s : Solver n) (sol : Solution n) : Prop where
  pivotProduct_eq : sol.pivotProduct = sol.grid.pivotProduct (Nat.le_refl n)
  consistent_eq : sol.consistent = sol.grid.isConsistent
  status_eq : sol.status = sol.x.bind fun x =>
    s.thresholds.residual.status? (s.given.residualMetrics s.numerics x s.thresholds.residual.epsilon).relative
  isSome_status : sol.status.isSome = sol.consistent
  isSome_metrics : sol.metrics.isSome = sol.consistent
  warnings_eq : sol.warnings = (s.thresholds.condition.judge (s.estimator n s.given.coefficients)).2
  metrics_eq : sol.metrics = sol.x.map fun x => s.given.residualMetrics s.numerics x s.thresholds.residual.epsilon
  condition_eq : sol.condition = (s.thresholds.condition.judge (s.estimator n s.given.coefficients)).1

theorem rates_of_solve {s : Solver n} (h : s.solve.outcome = .ok sol) : s.Rates sol := by
  unfold solve at h
  split at h
  next => cases h
  next =>
    dsimp only at h
    split at h
    next => cases h
    next =>
      split at h
      next hconsistent =>
        split at h
        next => cases h
        next =>
          split at h
          next => cases h
          next hstatus =>
            cases h
            exact ⟨rfl, hconsistent.symm, hstatus.symm, rfl, rfl, rfl, rfl, rfl⟩
      next hconsistent =>
        rw [Bool.not_eq_true] at hconsistent
        cases h
        exact ⟨rfl, hconsistent.symm, rfl, rfl, rfl, rfl, rfl, rfl⟩

theorem basis_of_solve {s : Solver n} (h : s.solve.outcome = .ok sol) (hkind : sol.kind = .singular) :
    sol.basis = some (Basis.ofGrid sol.grid) := by
  have hconcludes := s.concludes_solve
  rw [h] at hconcludes
  cases hconcludes with
  | solved ended consistent grid_eq sweep_eq consistent_eq basis_eq kind_eq =>
    rw [← grid_eq] at basis_eq
    cases hfull : sol.grid.hasFullPivots (Nat.le_refl n) with
    | true =>
      rw [readSolution_of_hasFullPivots hfull] at basis_eq
      rw [kind_eq, basis_eq] at hkind
      cases hkind
    | false =>
      rw [readSolution_of_not_hasFullPivots hfull] at basis_eq
      exact basis_eq
  | inconsistent ended consistent grid_eq sweep_eq consistent_eq basis_eq kind_eq =>
    rw [kind_eq] at hkind
    cases hkind

theorem exists_outcome (s : Solver n) (hfresh : s.consumed = false)
    (hended : (reduce s.thresholds.sweep s.grid).sweep.ended ≠ some .divisorOverflow)
    (hbands : s.thresholds.residual.failMinExclusive.eqv s.thresholds.residual.degradedMax = true) :
    ∃ sol, s.solve.outcome = .ok sol := by
  have hconcludes := s.concludes_solve
  cases hout : s.solve.outcome with
  | ok sol => exact ⟨sol, rfl⟩
  | error e =>
    rw [hout] at hconcludes
    cases hconcludes with
    | consumed used =>
      rw [hfresh] at used
      cases used
    | divisorOverflow ended => exact absurd ended hended
    | bandGap gap => exact absurd gap (ResidualBands.status?_ne_none hbands _)

theorem exists_outcome_of_ended (s : Solver n) (hfresh : s.consumed = false)
    (hended : (reduce s.thresholds.sweep s.grid).sweep.ended = none ∨
      (reduce s.thresholds.sweep s.grid).sweep.ended = some .contradiction)
    (hbands : s.thresholds.residual.failMinExclusive.eqv s.thresholds.residual.degradedMax = true) :
    ∃ sol, s.solve.outcome = .ok sol := by
  apply s.exists_outcome hfresh _ hbands
  intro hoverflow
  rw [hoverflow] at hended
  cases hended with
  | inl hnone => cases hnone
  | inr hcontradiction => cases hcontradiction

theorem exists_solved (s : Solver n) {x : Row n} (hfresh : s.consumed = false)
    (hended : (reduce s.thresholds.sweep s.grid).sweep.ended = none)
    (hconsistent : (reduce s.thresholds.sweep s.grid).grid.isConsistent = true)
    (hread : (readSolution s.numerics.products (reduce s.thresholds.sweep s.grid).grid).1 = .ok x)
    (hbands : s.thresholds.residual.failMinExclusive.eqv s.thresholds.residual.degradedMax = true) :
    ∃ sol, s.solve.outcome = .ok sol ∧ sol.x = some x ∧ sol.residual = some (s.given.residual x) ∧
      sol.status = s.thresholds.residual.status?
        (s.given.residualMetrics s.numerics x s.thresholds.residual.epsilon).relative := by
  -- From a consistent reduced grid the solution is read off, and what is said about it is about the given
  -- grid.
  obtain ⟨status, hstatus⟩ := Option.ne_none_iff_exists'.mp (ResidualBands.status?_ne_none hbands
    (s.given.residualMetrics s.numerics x s.thresholds.residual.epsilon).relative)
  unfold solve
  rw [hfresh, if_neg Bool.false_ne_true]
  simp only [hended, hconsistent, hread, hstatus, ↓reduceIte]
  exact ⟨_, rfl, rfl, rfl, rfl⟩

theorem grid_solve (s : Solver n) (hfresh : s.consumed = false) :
    s.solve.solver.grid = (reduce s.thresholds.sweep s.grid).grid := by
  unfold solve
  rw [hfresh, if_neg Bool.false_ne_true]
  dsimp only
  split
  next => rfl
  next =>
    split
    next =>
      split
      next => rfl
      next =>
        split
        next => rfl
        next => rfl
    next => rfl

end Solver

end RowSweep
