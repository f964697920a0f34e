import RowSweep.Proofs.Solver.Kind
import RowSweep.Proofs.Solver.Trace
import RowSweep.Proofs.Sweep.Replay

/-!
This module contains the replay of a solve: from the given grid, each event of the trace tells by its own fields what
the next grid is, up to the grid of the solution.
-/

namespace RowSweep

namespace Event

def Follows (zeroSnap : Binary64) (g : Grid n (n + 1)) : Event n → Prop
  | initialized g' => g' = g
  | snapshot _ g' => g' = g
  | rowMoved move => move.Follows g
  | step s => s.Follows zeroSnap g
  | classified .. => True
  | solved g' .. => g' = g

inductive Replays (zeroSnap : Binary64) : Grid n (n + 1) → List (Event n) → Grid n (n + 1) → Prop where
  | nil : Replays zeroSnap g [] g
  | cons (follows : event.Follows zeroSnap g) (rest : Replays zeroSnap (event.grid?.getD g) events g') :
      Replays zeroSnap g (event :: events) g'

variable {zeroSnap : Binary64} {g g' g'' : Grid n (n + 1)} {events events' : List (Event n)} {event : Event n}

theorem Replays.append (h : Replays zeroSnap g events g') (h' : Replays zeroSnap g' events' g'') :
    Replays zeroSnap g (events ++ events') g'' := by
  induction h with
  | nil => exact h'
  | cons follows _ ih => exact Replays.cons follows (ih h')

theorem Replays.concat (h : Replays zeroSnap g events g') (follows : event.Follows zeroSnap g') :
    Replays zeroSnap g (events ++ [event]) (event.grid?.getD g') :=
  h.append (Replays.cons follows Replays.nil)

theorem replays_orderRows (zeroSnap : Binary64) (g : Grid n (n + 1)) :
    Replays zeroSnap g (g.orderRows.moves.toList.map rowMoved) g.orderRows.grid := by
  apply Grid.orderRows_of_placed
    (P := fun state => Replays zeroSnap g (state.moves.toList.map rowMoved) state.grid)
  case hstart => exact Replays.nil
  case hplaced =>
    intro state state' placed hreplays
    cases placed with
    | stays => exact hreplays
    | moves follows =>
      rw [Array.toList_push, List.map_append]
      exact hreplays.concat follows

theorem replays_run {settings : SweepSettings} {h : n ≤ n}
    (hended : (Sweep.run settings g h).ended ≠ some .divisorOverflow) :
    Replays settings.zeroSnap g ((Sweep.run settings g h).trace.toList.map step) (Sweep.run settings g h).grid := by
  revert hended
  apply Sweep.run_of_step (P := fun s => s.ended ≠ some .divisorOverflow →
    Replays settings.zeroSnap g (s.trace.toList.map step) s.grid)
  case hstep =>
    intro c r hr reached ih hended
    have hdivisor := Sweep.isFinite_of_ended_record reached.ended hended
    have hstep := Step.effect_ofPair settings (Sweep.before settings g h c r (Nat.lt_of_succ_lt hr)).grid c r
      (Nat.lt_of_succ_lt hr) hr
    have hreplays := ih (by simp [reached.ended])
    have hfollows : (step (Sweep.stepAt settings g h c r hr)).Follows settings.zeroSnap
        (Sweep.before settings g h c r (Nat.lt_of_succ_lt hr)).grid := hstep.follows hdivisor
    rw [Sweep.trace_record, if_pos hdivisor, Sweep.grid_record, Array.toList_push, List.map_append]
    exact hreplays.concat hfollows
  case hstart =>
    intro _
    exact Replays.nil
  case hpass =>
    intro c hm hreplays
    exact hreplays
  case hsettle =>
    intro c hreplays
    rwa [Sweep.ended_settle, Sweep.trace_settle, Sweep.grid_settle]

end Event

namespace Solution

theorem replays_solvedEvent? (zeroSnap : Binary64) (sol : Solution n) :
    Event.Replays zeroSnap sol.grid sol.solvedEvent?.toList sol.grid := by
  unfold solvedEvent?
  split
  next => exact Event.Replays.cons rfl Event.Replays.nil
  next => exact Event.Replays.nil

end Solution

theorem Solver.replays_solve {s : Solver n} (h : s.solve.outcome = .ok sol) :
    Event.Replays s.thresholds.sweep.zeroSnap s.grid sol.trace sol.grid := by
  have hlogs := logs_solve h
  have hgrid : sol.grid = (reduce s.thresholds.sweep s.grid).sweep.grid := (grid_of_solve h).left
  have hrows := Event.replays_orderRows s.thresholds.sweep.zeroSnap s.grid
  have hsweep := Event.replays_run hlogs.ended
  have hsolved := sol.replays_solvedEvent? s.thresholds.sweep.zeroSnap
  have hafter : Event.Replays s.thresholds.sweep.zeroSnap sol.grid
      [.snapshot .postElimination sol.grid, .classified sol.pivotProduct sol.consistent] sol.grid :=
    .cons rfl (.cons trivial .nil)
  have hbefore : Event.Replays s.thresholds.sweep.zeroSnap s.grid
      [.initialized s.grid, .snapshot .preElimination s.grid] s.grid :=
    .cons rfl (.cons rfl .nil)
  rw [hlogs.trace_eq]
  unfold Solution.eventsOf
  rw [hgrid] at hafter hsolved ⊢
  exact ((hbefore.append (hrows.append hsweep)).append hafter).append hsolved

theorem replays_of_solve (system : LinearSystem) (thresholds : Thresholds) (numerics : Numerics)
    (estimator : Estimator) :
    (∀ sol, (Solver.ofSystem system thresholds numerics estimator).solve.outcome = .ok sol →
      sol.given = system.grid ∧ (∃ moves steps, sol.trace = sol.eventsOf system.grid moves steps) ∧
      Event.Replays thresholds.sweep.zeroSnap system.grid sol.trace sol.grid) ∧
    (system.grid.IsBounded → thresholds.residual.failMinExclusive.eqv thresholds.residual.degradedMax = true →
      ∃ sol, (Solver.ofSystem system thresholds numerics estimator).solve.outcome = .ok sol) := by
  constructor
  . intro sol hsol
    have hlogs := Solver.logs_solve hsol
    exact ⟨hlogs.given_eq, ⟨_, _, hlogs.trace_eq⟩, Solver.replays_solve hsol⟩
  . intro hbounded hbands
    exact Solver.exists_outcome_of_isBounded (Solver.ofSystem system thresholds numerics estimator) rfl hbounded hbands

theorem replays_of_unorderedLines :
    ∃ system : LinearSystem, system.size = 3 ∧ system.grid.IsBounded ∧
      ∃ sol, (Solver.ofSystem system .default .standard Numerics.standard.estimator).solve.outcome = .ok sol ∧
        Event.Replays Thresholds.default.sweep.zeroSnap system.grid sol.trace sol.grid := by
  let system : LinearSystem := ⟨3, unorderedLines.grid, by decide, by decide +kernel⟩
  have hbounded : system.grid.IsBounded := by
    show unorderedLines.grid.IsBounded
    decide +kernel
  obtain ⟨hreplays, hresult⟩ := replays_of_solve system .default .standard Numerics.standard.estimator
  obtain ⟨sol, hsol⟩ := hresult hbounded (by decide +kernel)
  exact ⟨system, rfl, hbounded, sol, hsol, (hreplays sol hsol).right.right⟩

end RowSweep
