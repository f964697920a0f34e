import RowSweep.RowOrder
import RowSweep.Sweep

/-!
This module contains the events that make up the trace of a solve.
-/

namespace RowSweep

inductive GridStage where
  | preElimination
  | postElimination
  deriving DecidableEq

def GridStage.name : GridStage → String
  | preElimination => "pre_elimination"
  | postElimination => "post_elimination"

def Action.name : Action → String
  | skip => "skip"
  | swap => "swap"
  | combine => "combine"
  | swapCombine => "swap_combine"

inductive Event (n : Nat) where
  | initialized (grid : Grid n (n + 1))
  | snapshot (stage : GridStage) (grid : Grid n (n + 1))
  | rowMoved (move : RowMove n (n + 1))
  | step (step : Step n (n + 1))
  | classified (pivotProduct : Binary64) (consistent : Bool)
  | solved (grid : Grid n (n + 1)) (x : Row n) (residual : Row n) (singular : Bool)

namespace Event

def name : Event n → String
  | initialized _ => "matrix_initialized"
  | snapshot .. => "grid_snapshot"
  | rowMoved _ => "row_swap_performed"
  | step _ => "elimination_step"
  | classified .. => "solve_complete"
  | solved .. => "back_substitution_complete"

def grid? : Event n → Option (Grid n (n + 1))
  | initialized g => some g
  | snapshot _ g => some g
  | rowMoved move => some move.grid
  | step s => some s.grid
  | classified .. => none
  | solved g .. => some g

end Event

end RowSweep
