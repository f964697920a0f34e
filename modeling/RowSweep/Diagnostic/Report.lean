import RowSweep.Diagnostic.Build
import RowSweep.Diagnostic.Order
import RowSweep.Solver

/-!
This module contains the diagnostics of a rejected input and of a solution.
-/

namespace RowSweep

namespace InputFault

def diagnostic (fault : InputFault) (source : String) : Except BuildError Diagnostic :=
  Diagnostic.build
    { code := .text fault.code
      message := .text fault.message
      source := .text source
      witness := .mapping [(.text "shape", .list (fault.shape.map fun (k : Nat) => .integer k))] }

end InputFault

namespace Solution

def source : Evidence :=
  .text "solver"

def indices (ks : List Nat) : Evidence :=
  .list (ks.map fun (k : Nat) => .integer k)

def contradictionFindings (s : Solution n) : List Finding :=
  s.grid.contradictoryRows.map fun i =>
    { code := .text "E_SYS_INCONSISTENT"
      message := .text s!"reduced row {i.val} reads 0 = {(Decimal.Layout.general 12).write s.grid[i].constant}"
      source := source
      row := .integer i.val
      witness := .mapping [(.text "pivot_product", .real s.pivotProduct)] }

def singularFindings (s : Solution n) : List Finding :=
  let basis := s.basis.getD []
  let columns := indices (List.map (·.unknown.toNat) basis)
  let singular : Finding :=
    { code := .text "W_SYS_SINGULAR"
      message := .text "a column has no pivot; system has no unique solution"
      source := source
      witness := .mapping [(.text "basis_columns", columns),
        (.text "free_columns", indices (basis.freeColumns n))] }
  let incomplete : Finding :=
    { code := .text "W_SYS_BASIS_INCOMPLETE"
      message := .text "particular solution does not reproduce every original equation"
      source := source
      witness := .mapping [(.text "basis_columns", columns)] }
  if s.status = some .pass then [singular] else [singular, incomplete]

def residualFindings (s : Solution n) : List Finding :=
  match s.metrics with
  | none => []
  | some metrics =>
    let shown := (Decimal.Layout.scientific 3).write metrics.relative
    match s.status with
    | some .degraded =>
      [{ code := .text "W_NUM_RESIDUAL_DEGRADED"
         message := .text s!"relative residual {shown} is in the degraded band"
         source := source
         witness := .mapping [(.text "res_rel", .real metrics.relative)] }]
    | some .fail =>
      [{ code := .text "E_NUM_RESIDUAL_FAILED"
         message := .text s!"relative residual {shown} exceeded the degraded band"
         source := source
         witness := .mapping [(.text "res_rel",
           if metrics.relative.isFinite then .real metrics.relative else .null)] }]
    | _ => []

def warningFindings (s : Solution n) : List Finding :=
  s.warnings.map fun w =>
    { code := .text w.code
      message := .text w.message
      source := source
      witness := .mapping [(.text "cond_ind",
        if s.condition.isNaN then .null else .real s.condition)] }

def findings (s : Solution n) : List Finding :=
  (if !s.consistent then s.contradictionFindings
    else if s.isSingular then s.singularFindings else []) ++
  s.residualFindings ++ s.warningFindings

def diagnostics (s : Solution n) : Except BuildError (List Diagnostic) := do
  let ds ← s.findings.mapM Diagnostic.build
  return Diagnostic.sort ds

end Solution

end RowSweep
