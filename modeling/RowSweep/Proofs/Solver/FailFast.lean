import RowSweep.Proofs.Solver.Kind
import RowSweep.Proofs.Solver.Trace
import RowSweep.Proofs.Sweep.Contradiction

/-!
This module contains how a solve without a solution comes to its end: the sweep looks for a contradictory row after
each step, and what it finds is what the kind says.
-/

namespace RowSweep

namespace Solver

variable {s : Solver n}

theorem failsFast_reduce (hn : 2 ≤ n) (h : s.solve.outcome = .ok sol) :
    (reduce s.thresholds.sweep s.grid).sweep.FailsFast :=
  Sweep.failsFast_run hn (logs_solve h).ended

theorem aborted_iff_of_solve (hn : 2 ≤ n) (h : s.solve.outcome = .ok sol) :
    sol.sweep.aborted = true ↔ sol.kind = .inconsistent := by
  have hfails := failsFast_reduce hn h
  have hkind := kind_eq_of_solve h
  have hgrid : sol.grid = (reduce s.thresholds.sweep s.grid).sweep.grid := (grid_of_solve h).left
  rw [(grid_of_solve h).right, hkind, hgrid]
  show (reduce s.thresholds.sweep s.grid).sweep.ended.isSome = true ↔ _
  rw [← hfails.grid]
  cases (reduce s.thresholds.sweep s.grid).sweep.grid.isConsistent with
  | false => simp
  | true =>
    simp only [Bool.true_eq_false, false_iff, if_true]
    split
    next => exact SolutionKind.noConfusion
    next => exact SolutionKind.noConfusion

theorem steps_of_isConsistent (hn : 2 ≤ n) (h : s.solve.outcome = .ok sol) (hgrid : s.grid.isConsistent = false) :
    sol.sweep.steps = 1 := by
  have hcounts : (reduce s.thresholds.sweep s.grid).sweep.Counts := Sweep.counts_run
  rw [← s.grid.isConsistent_orderRows] at hgrid
  rw [(grid_of_solve h).right]
  show (reduce s.thresholds.sweep s.grid).sweep.steps = 1
  rw [hcounts.steps_eq]
  exact Sweep.size_trace_of_isConsistent hn (logs_solve h).ended hgrid

end Solver

theorem failsFast_of_solve (system : LinearSystem) (thresholds : Thresholds) (numerics : Numerics)
    (estimator : Estimator) (hn : 2 ≤ system.size) :
    (∀ sol, (Solver.ofSystem system thresholds numerics estimator).solve.outcome = .ok sol →
      (∃ moves earlier last, sol.trace = sol.eventsOf system.grid moves (earlier ++ [last]) ∧
        (∀ step ∈ earlier, step.grid.isConsistent = true) ∧
        (last.grid.isConsistent = false ↔ sol.sweep.aborted = true)) ∧
      (sol.sweep.aborted = true ↔ sol.kind = .inconsistent) ∧
      (sol.sweep.aborted = true →
        sol.sweep.passes = sol.sweep.pivotColumns.length + sol.sweep.freeColumns.length + 1 ∧
        (sol.sweep.pivotColumns ++ sol.sweep.freeColumns).Perm (List.range (sol.sweep.passes - 1))) ∧
      (system.grid.isConsistent = false → sol.sweep.steps = 1)) ∧
    (system.grid.IsBounded → thresholds.residual.failMinExclusive.eqv thresholds.residual.degradedMax = true →
      ∃ sol, (Solver.ofSystem system thresholds numerics estimator).solve.outcome = .ok sol) := by
  constructor
  . intro sol hsol
    have hfails := Solver.failsFast_reduce hn hsol
    have hsweep := (Solver.grid_of_solve hsol).right
    refine ⟨?_, Solver.aborted_iff_of_solve hn hsol, ?_, Solver.steps_of_isConsistent hn hsol⟩
    . obtain ⟨earlier, last, hsteps, hearlier, hlast⟩ := hfails.last
      have htrace := (Solver.logs_solve hsol).trace_eq
      rw [hsteps] at htrace
      refine ⟨_, earlier, last, htrace, hearlier, ?_⟩
      rw [hsweep]
      exact hlast
    . rw [hsweep]
      exact hfails.settled
  . intro hbounded hbands
    exact Solver.exists_outcome_of_isBounded (Solver.ofSystem system thresholds numerics estimator) rfl hbounded hbands

def contradictoryLines : Grid 3 4 :=
  #v[#v[.one, .one, .zero, .one], #v[.zero, .zero, .zero, .one], #v[.zero, .one, .zero, .ofNat 2]]

theorem failsFast_of_contradictoryLines :
    ∃ system : LinearSystem, system.size = 3 ∧ system.grid.isConsistent = false ∧ system.grid.IsBounded ∧
      ∃ sol, (Solver.ofSystem system .default .standard Numerics.standard.estimator).solve.outcome = .ok sol ∧
        sol.kind = .inconsistent ∧ sol.sweep.aborted = true ∧ sol.sweep.steps = 1 := by
  let system : LinearSystem := ⟨3, contradictoryLines, by decide, by decide +kernel⟩
  have hbounded : system.grid.IsBounded := by
    show contradictoryLines.IsBounded
    decide +kernel
  have hgrid : system.grid.isConsistent = false := by decide +kernel
  obtain ⟨hfails, hresult⟩ := failsFast_of_solve system .default .standard Numerics.standard.estimator (by decide)
  obtain ⟨sol, hsol⟩ := hresult hbounded (by decide +kernel)
  obtain ⟨-, haborted, -, hsteps⟩ := hfails sol hsol
  have hkind :
      (Solver.ofSystem system .default .standard Numerics.standard.estimator).solve.outcome.map (·.kind) =
        .ok .inconsistent := by
    decide +kernel
  rw [hsol] at hkind
  have hinconsistent : sol.kind = .inconsistent := Except.ok.inj hkind
  exact ⟨system, rfl, hgrid, hbounded, sol, hsol, hinconsistent, haborted.mpr hinconsistent, hsteps hgrid⟩

end RowSweep
