import RowSweep.Proofs.RowOrder
import RowSweep.Proofs.Solver.Outcome
import RowSweep.Proofs.Sweep.Passes

/-!
This module contains how the trace of a solve is made up: which events there are and in which order, and that the
counters of the solution count them.
-/

namespace RowSweep

namespace Solution

def solvedEvent? (sol : Solution n) : Option (Event n) :=
  match sol.x, sol.residual with
  | some x, some residual => some (.solved sol.grid x residual sol.basis.isSome)
  | _, _ => none

def eventsOf (sol : Solution n) (g : Grid n (n + 1)) (moves : List (RowMove n (n + 1)))
    (steps : List (Step n (n + 1))) : List (Event n) :=
  [.initialized g, .snapshot .preElimination g] ++ (moves.map .rowMoved ++ steps.map .step) ++
    [.snapshot .postElimination sol.grid, .classified sol.pivotProduct sol.consistent] ++ sol.solvedEvent?.toList

end Solution

namespace Solver

structure Logs (s : Solver n) (events : List (Event n)) (sol : Solution n) : Prop where
  ended : (reduce s.thresholds.sweep s.grid).sweep.ended ≠ some .divisorOverflow
  given_eq : sol.given = s.given
  swapCount_eq : sol.swapCount = (reduce s.thresholds.sweep s.grid).ordered.swaps
  events_eq : events = sol.trace
  trace_eq : sol.trace = sol.eventsOf s.grid (reduce s.thresholds.sweep s.grid).ordered.moves.toList
    (reduce s.thresholds.sweep s.grid).sweep.trace.toList
  solved_iff : sol.solvedEvent?.isSome = true ↔ sol.kind ≠ .inconsistent

theorem logs_solve {s : Solver n} : ∀ {sol}, s.solve.outcome = .ok sol → s.Logs s.solve.events sol := by
  unfold solve
  split
  next =>
    intro sol h
    cases h
  next =>
    dsimp only
    split
    next =>
      intro sol h
      cases h
    next hended =>
      split
      next hconsistent =>
        split
        next =>
          intro sol h
          cases h
        next =>
          split
          next =>
            intro sol h
            cases h
          next =>
            intro sol h
            cases h
            refine ⟨hended, rfl, rfl, rfl, ?_, ?_⟩
            . simp [Solution.eventsOf, Solution.solvedEvent?, Reduction.events, hconsistent]
            . simp only [Solution.solvedEvent?, Option.isSome_some, true_iff]
              split
              next => exact SolutionKind.noConfusion
              next => exact SolutionKind.noConfusion
      next hconsistent =>
        intro sol h
        cases h
        rw [Bool.not_eq_true] at hconsistent
        refine ⟨hended, rfl, rfl, rfl, ?_, ?_⟩
        . simp [Solution.eventsOf, Solution.solvedEvent?, Reduction.events, hconsistent]
        . simp [Solution.solvedEvent?]

end Solver

theorem trace_of_solve (s : Solver n) (sol : Solution n) (h : s.solve.outcome = .ok sol) :
    s.solve.events = sol.trace ∧
    ∃ (moves : List (RowMove n (n + 1))) (steps : List (Step n (n + 1))),
      sol.trace = sol.eventsOf s.grid moves steps ∧
      (sol.solvedEvent?.isSome = true ↔ sol.kind ≠ .inconsistent) ∧
      (∀ move ∈ moves, move.finalRow < move.movedRow ∧ move.movedRow < n) ∧
      sol.swapCount = (moves.map fun move => move.movedRow - move.finalRow).sum ∧
      sol.sweep.steps = steps.length ∧
      sol.sweep.combines = steps.countP (fun step => step.action = .combine ∨ step.action = .swapCombine) ∧
      sol.sweep.swaps = steps.countP (·.action = .swap) ∧
      sol.sweep.pivotSwaps = steps.countP (·.action = .swapCombine) ∧
      (∀ step ∈ steps, step.sourceRow = step.row + 1 ∧ step.sourceRow < n) ∧
      steps.map (fun step => (step.pass, step.row)) =
        Sweep.passTracks (fun p => steps.countP (·.pass = p)) sol.sweep.passes ∧
      (sol.sweep.aborted = false →
        sol.sweep.passes = n ∧
        (∀ p < n, steps.countP (·.pass = p) + sol.sweep.pivotColumns.countP (· < p) + 1 = n) ∧
        sol.sweep.steps = ((List.range n).map fun p => n - 1 - sol.sweep.pivotColumns.countP (· < p)).sum) := by
  have hlogs := Solver.logs_solve h
  have hcounts : (Solver.reduce s.thresholds.sweep s.grid).sweep.Counts := Sweep.counts_run
  have horder : (Solver.reduce s.thresholds.sweep s.grid).sweep.InOrder := Sweep.inOrder_run hlogs.ended
  rw [(Solver.grid_of_solve h).right]
  refine ⟨hlogs.events_eq, _, _, hlogs.trace_eq, hlogs.solved_iff, ?_, ?_, ?_, hcounts.combines_eq,
    hcounts.swaps_eq, hcounts.pivotSwaps_eq, ?_, horder.track_eq, ?_⟩
  . exact s.grid.lt_of_mem_moves
  . rw [hlogs.swapCount_eq]
    exact s.grid.swaps_orderRows
  . rw [Array.length_toList]
    exact hcounts.steps_eq
  . intro step hmem
    exact Sweep.sourceRow_of_mem_trace (Array.mem_toList_iff.mp hmem)
  . intro haborted
    have hended : (Solver.reduce s.thresholds.sweep s.grid).sweep.ended = none := by
      simpa [Sweep.summary] using haborted
    have hpasses : (Solver.reduce s.thresholds.sweep s.grid).sweep.passes = n := Sweep.passes_run hended
    have hlength : ∀ p < n, (Solver.reduce s.thresholds.sweep s.grid).sweep.stepsIn p =
        n - 1 - (Solver.reduce s.thresholds.sweep s.grid).sweep.pivotColumns.countP (· < p) := by
      intro p hp
      exact horder.stepsIn_eq p (by omega) (Or.inr hended)
    refine ⟨hpasses, ?_, ?_⟩
    . intro p hp
      have hle : (Solver.reduce s.thresholds.sweep s.grid).sweep.pivotColumns.countP (· < p) ≤ p :=
        Sweep.countP_pivotColumns_le (Nat.le_of_lt hp) hended
      have hsteps := hlength p hp
      unfold Sweep.stepsIn at hsteps
      dsimp only [Sweep.summary]
      omega
    . dsimp only [Sweep.summary]
      rw [hcounts.steps_eq, horder.size_trace, hpasses]
      congr 1
      apply List.map_congr_left
      intro p hp
      exact hlength p (List.mem_range.mp hp)

def unorderedLines : Solver 3 :=
  let g : Grid 3 4 :=
    #v[#v[.one, .one, .zero, .ofNat 3], #v[.zero, .one, .zero, .one], #v[.one, .zero, .zero, .ofNat 2]]
  ⟨.default, .standard, Numerics.standard.estimator, g, g, Vector.replicate 3 .zero, Vector.replicate 3 .zero, false⟩

theorem trace_of_unorderedLines :
    ∃ sol, unorderedLines.solve.outcome = .ok sol ∧ unorderedLines.solve.events = sol.trace ∧ sol.swapCount = 1 ∧
      sol.sweep.passes = 3 ∧ sol.sweep.pivotColumns = [0, 1] ∧
      ∃ (moves : List (RowMove 3 4)) (steps : List (Step 3 4)),
        sol.trace = sol.eventsOf unorderedLines.grid moves steps ∧
        steps.map (fun step => (step.pass, step.row)) =
          Sweep.passTracks (fun p => steps.countP (·.pass = p)) sol.sweep.passes ∧
        ∀ p < 3, steps.countP (·.pass = p) + sol.sweep.pivotColumns.countP (· < p) + 1 = 3 := by
  have hsummary : unorderedLines.solve.outcome.map (fun sol => (sol.swapCount, sol.sweep)) =
      .ok (1, ⟨3, 3, 2, 0, 0, [0, 1], [2], false⟩) := by
    decide +kernel
  cases hsol : unorderedLines.solve.outcome with
  | error e =>
    rw [hsol] at hsummary
    cases hsummary
  | ok sol =>
    obtain ⟨hevents, moves, steps, htrace, -, -, -, -, -, -, -, -, horder, hcomplete⟩ :=
      trace_of_solve unorderedLines sol hsol
    rw [hsol] at hsummary
    have hpair := Except.ok.inj hsummary
    have hswaps : sol.swapCount = 1 := congrArg Prod.fst hpair
    have hsweep : sol.sweep = ⟨3, 3, 2, 0, 0, [0, 1], [2], false⟩ := congrArg Prod.snd hpair
    have hpasses := (hcomplete (by rw [hsweep])).right.left
    refine ⟨sol, rfl, hevents, hswaps, ?_, ?_, moves, steps, htrace, horder, hpasses⟩
    . rw [hsweep]
    . rw [hsweep]

end RowSweep
