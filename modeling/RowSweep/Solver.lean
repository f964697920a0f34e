import RowSweep.BackSubstitution
import RowSweep.Libraries
import RowSweep.Notice
import RowSweep.Residual
import RowSweep.LinearSystem

/-!
This module contains the solver: it owns one system, solves it once, and reports the kind of the solution
with everything that was found on the way.
-/

namespace RowSweep

/--
The result of solving a system of `n` equations. The solution and all that is said about it
are there unless the system is inconsistent, the basis only if an unknown has no pivot.
-/
structure Solution (n : Nat) where
  kind : SolutionKind
  x : Option (Row n)
  residual : Option (Row n)
  metrics : Option ResidualMetrics
  status : Option Status
  pivotProduct : Binary64
  consistent : Bool
  basis : Option Basis
  grid : Grid n (n + 1)
  given : Grid n (n + 1)
  swapCount : Nat
  sweep : SweepSummary
  condition : Binary64
  warnings : List Warning
  trace : List (Event n)

inductive SolveError where
  | consumed
  | invariant (fault : InvariantFault)
  | bandGap
  | divisorOverflow
  deriving DecidableEq

inductive SetupError where
  | input (error : InputError)
  | unsupportedEstimator (id : String)
  deriving DecidableEq

structure Solver (n : Nat) where
  thresholds : Thresholds
  numerics : Numerics
  estimator : Estimator
  grid : Grid n (n + 1)
  given : Grid n (n + 1)
  x : Row n
  residual : Row n
  consumed : Bool

structure Solver.Run (n : Nat) where
  solver : Solver n
  notices : List Notice
  events : List (Event n)
  outcome : Except SolveError (Solution n)

namespace Solver

def resolveEstimator (numerics : Numerics) (thresholds : Thresholds) (given : Option Estimator) :
    Except SetupError Estimator :=
  match given with
  | some estimator => .ok estimator
  | none =>
    if thresholds.condition.estimatorId = ConditionPolicy.builtinEstimatorId then
      .ok numerics.estimator
    else .error (.unsupportedEstimator thresholds.condition.estimatorId)

def ofSystem (system : LinearSystem) (thresholds : Thresholds) (numerics : Numerics)
    (estimator : Estimator) : Solver system.size where
  thresholds := thresholds
  numerics := numerics
  estimator := estimator
  grid := system.grid
  given := system.grid
  x := Vector.replicate system.size .zero
  residual := Vector.replicate system.size .zero
  consumed := false

/--
A solver for the system in a document. The size that is asked for wins over the one in the thresholds.
-/
def ofDocument (lib : Libraries) (document : Document) (thresholds : Thresholds) (expected : Option Int)
    (estimator : Option Estimator) : Except SetupError (Σ n, Solver n) := do
  let expected := expected.or thresholds.expectedUnknowns
  let system ← (LinearSystem.ofDocument lib.complaint document expected).mapError .input
  let estimator ← resolveEstimator lib.numerics thresholds estimator
  return ⟨system.size, ofSystem system thresholds lib.numerics estimator⟩

def setCell? (s : Solver n) (row column : Int) (v : Binary64) : Option (Solver n) :=
  (s.grid.setCell? row column v).map fun g => { s with grid := g }

structure Reduction (n : Nat) where
  ordered : RowOrder.State n (n + 1)
  sweep : Sweep n n

def reduce (settings : SweepSettings) (g : Grid n (n + 1)) : Reduction n :=
  let ordered := g.orderRows
  ⟨ordered, .run settings ordered.grid (Nat.le_refl n)⟩

namespace Reduction

def grid (r : Reduction n) : Grid n (n + 1) :=
  r.sweep.grid

def events (r : Reduction n) : List (Event n) :=
  r.ordered.moves.toList.map .rowMoved ++ r.sweep.trace.toList.map .step

def notices (r : Reduction n) : List Notice :=
  r.ordered.moves.toList.map (fun move => .rowMoved move.movedRow move.finalRow) ++
    r.sweep.notes.toList.map .sweep

end Reduction

def duplicateNotices (g : Grid m n) : List Notice :=
  (List.finRange m).filterMap fun i => (g.duplicateOf? i).map fun k => .duplicateRow i k

def readSolution (products : Summation) (g : Grid n (n + 1)) :
    Except InvariantFault (Row n) × Option Basis × List Notice :=
  if g.hasFullPivots (Nat.le_refl n) then (g.backSubstitute products (Nat.le_refl n), none, [])
  else
    let basis := Basis.ofGrid g
    (basis.particularSolution g, some basis, .missingPivot :: duplicateNotices g)

def solve (s : Solver n) : Run n :=
  if s.consumed then ⟨s, [], [], .error .consumed⟩
  else
    let r := reduce s.thresholds.sweep s.grid
    let g := r.grid
    let s' := { s with grid := g, consumed := true }
    let before := [.initialized s.grid, .snapshot .preElimination s.grid] ++ r.events
    match r.sweep.ended with
    | some .divisorOverflow => ⟨s', r.notices, before, .error .divisorOverflow⟩
    | _ =>
      let product := g.pivotProduct (Nat.le_refl n)
      let consistent := g.isConsistent
      let events := before ++ [.snapshot .postElimination g, .classified product consistent]
      let notices := r.notices ++ [.classified n n product consistent]
      let (condition, warnings) :=
        s.thresholds.condition.judge (s.estimator n s.given.coefficients)
      if consistent then
        let (solution, basis, how) := readSolution s.numerics.products g
        let notices := notices ++ how
        match solution with
        | .error fault => ⟨s', notices, events, .error (.invariant fault)⟩
        | .ok x =>
          let residual := s.given.residual x
          let metrics := s.given.residualMetrics s.numerics x s.thresholds.residual.epsilon
          let s' := { s' with x := x, residual := residual }
          let kind := if basis.isSome then .singular else .unique
          let notices := notices ++ if x.isFinite then [] else [.nonFiniteSolution kind]
          match s.thresholds.residual.status? metrics.relative with
          | none => ⟨s', notices, events, .error .bandGap⟩
          | some status =>
            let events := events ++ [.solved g x residual basis.isSome]
            ⟨s', notices, events, .ok
              { kind := kind, x := some x, residual := some residual, metrics := some metrics,
                status := some status, pivotProduct := product, consistent := true,
                basis := basis, grid := g, given := s.given,
                swapCount := r.ordered.swaps, sweep := r.sweep.summary,
                condition := condition, warnings := warnings, trace := events }⟩
      else
        ⟨s', notices ++ [.inconsistent], events, .ok
          { kind := .inconsistent, x := none, residual := none, metrics := none, status := none,
            pivotProduct := product, consistent := false, basis := none, grid := g,
            given := s.given, swapCount := r.ordered.swaps, sweep := r.sweep.summary,
            condition := condition, warnings := warnings, trace := events }⟩

end Solver

namespace SolveError

def describe? : SolveError → Option (String × String)
  | consumed => some ("E_SOLVER_STATE", "solver instance already consumed; build a new GaussSolver")
  | invariant fault => some (InvariantFault.code, fault.message)
  | bandGap => some ("E_SOLVER_CONFIG_INVALID",
      "residual status bands leave an undefined interval between degraded_max and fail_min_exclusive")
  | divisorOverflow => none

end SolveError

namespace Solution

def isSingular (s : Solution n) : Bool :=
  !s.grid.hasFullPivots (Nat.le_refl n)

end Solution

end RowSweep
