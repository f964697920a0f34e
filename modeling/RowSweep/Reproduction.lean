import RowSweep.Solver

/-!
This module contains the summary that makes runs comparable: the numeric settings and counts over solves.
-/

namespace RowSweep

structure SolveFacts where
  kind : SolutionKind
  status : Option Status
  swapCount : Nat
  sweep : SweepSummary
  warningCodes : List String
  deriving DecidableEq

def Solution.facts (s : Solution n) : SolveFacts :=
  ⟨s.kind, s.status, s.swapCount, s.sweep, s.warnings.map (·.code)⟩

structure SolveTotals where
  calls : Nat := 0
  unique : Nat := 0
  singular : Nat := 0
  inconsistent : Nat := 0
  pass : Nat := 0
  degraded : Nat := 0
  fail : Nat := 0
  rowSwaps : Nat := 0
  steps : Nat := 0
  combines : Nat := 0
  swaps : Nat := 0
  pivotSwaps : Nat := 0
  aborted : Nat := 0
  warnings : List (String × Nat) := []
  deriving DecidableEq

namespace SolveTotals

def countCode (code : String) : List (String × Nat) → List (String × Nat)
  | [] => [(code, 1)]
  | (c, k) :: rest =>
    if c < code then (c, k) :: countCode code rest
    else if c = code then (c, k + 1) :: rest
    else (code, 1) :: (c, k) :: rest

def countKind (t : SolveTotals) : SolutionKind → SolveTotals
  | .unique => { t with unique := t.unique + 1 }
  | .singular => { t with singular := t.singular + 1 }
  | .inconsistent => { t with inconsistent := t.inconsistent + 1 }

def countStatus (t : SolveTotals) : Option Status → SolveTotals
  | none => t
  | some .pass => { t with pass := t.pass + 1 }
  | some .degraded => { t with degraded := t.degraded + 1 }
  | some .fail => { t with fail := t.fail + 1 }

def record (t : SolveTotals) (f : SolveFacts) : SolveTotals :=
  let t := (t.countKind f.kind).countStatus f.status
  { t with
    calls := t.calls + 1
    rowSwaps := t.rowSwaps + f.swapCount
    steps := t.steps + f.sweep.steps
    combines := t.combines + f.sweep.combines
    swaps := t.swaps + f.sweep.swaps
    pivotSwaps := t.pivotSwaps + f.sweep.pivotSwaps
    aborted := t.aborted + if f.sweep.aborted then 1 else 0
    warnings := f.warningCodes.foldl (fun counts code => countCode code counts) t.warnings }

def ofSolves (facts : List SolveFacts) : SolveTotals :=
  facts.foldl record {}

def document (t : SolveTotals) : Document :=
  let count (k : Nat) : Document := .integer k
  .mapping [
    ("total_solve_calls", count t.calls),
    ("kind_counts", .mapping [("unique", count t.unique), ("singular", count t.singular),
      ("inconsistent", count t.inconsistent)]),
    ("residual_status_counts", .mapping [("pass", count t.pass), ("degraded", count t.degraded),
      ("fail", count t.fail)]),
    ("total_normalizer_swaps", count t.rowSwaps),
    ("total_elimination_steps", count t.steps),
    ("total_row_combines", count t.combines),
    ("total_pivot_swaps", count t.swaps),
    ("total_pairwise_swaps", count t.pivotSwaps),
    ("aborted_eliminations", count t.aborted),
    ("warning_code_counts", .mapping (t.warnings.map fun (code, k) => (code, count k)))]

end SolveTotals

namespace Thresholds

def controls (t : Thresholds) : Document :=
  .mapping [
    ("zero_snap_relative", .real t.sweep.zeroSnap),
    ("integer_ratio_enabled", .boolean t.sweep.integerRatio),
    ("pairwise_pivoting_enabled", .boolean t.sweep.pairwisePivoting),
    ("residual_epsilon", .real t.residual.epsilon),
    ("residual_pass_max", .real t.residual.passMax),
    ("residual_degraded_max", .real t.residual.degradedMax),
    ("condition_estimator", .text t.condition.estimatorId),
    ("condition_warn_max", .real t.condition.warnMax),
    ("expected_unknowns", match t.expectedUnknowns with
      | some n => .integer n
      | none => .null)]

def snapshot (t : Thresholds) (facts : List SolveFacts) : Document :=
  .mapping [
    ("schema", .text "solver_repro_snapshot_v1"),
    ("numeric_controls", t.controls),
    ("solve_summary", (SolveTotals.ofSolves facts).document)]

end Thresholds

end RowSweep
