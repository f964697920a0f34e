import RowSweep.Diagnostic.Report
import RowSweep.File.Path
import RowSweep.Reproduction

/-!
This module contains what the commands print: lines of text, or one JSON document in which a number that is
not finite is null.
-/

namespace RowSweep

namespace Document

mutual

def finite : Document → Document
  | real x => if x.isFinite then real x else null
  | sequence items => sequence (finiteItems items)
  | mapping entries => mapping (finiteEntries entries)
  | document => document

def finiteItems : List Document → List Document
  | [] => []
  | item :: rest => finite item :: finiteItems rest

def finiteEntries : List (String × Document) → List (String × Document)
  | [] => []
  | (key, item) :: rest => (key, finite item) :: finiteEntries rest

end

def count (k : Nat) : Document :=
  integer k

def optional (f : α → Document) : Option α → Document
  | some x => f x
  | none => null

def row (r : Row n) : Document :=
  sequence (r.toList.map real)

def grid (g : Grid m n) : Document :=
  sequence (g.toList.map row)

end Document

namespace Report

open Document (count optional)

def diagnosticDocument (d : Diagnostic) : Document :=
  let place (p : Position) : Document :=
    .mapping ((p.row.map fun k => ("row", count k)).toList ++
      (p.column.map fun k => ("column", count k)).toList)
  .mapping (
    [("code", .text d.code), ("severity", .text d.severity.name), ("message", .text d.message),
      ("suggested_action", .text d.action), ("solver_stage", .text d.stage.name)] ++
    (d.source.map fun source => ("source", .text source)).toList ++
    (d.position.map fun p => ("position", place p)).toList ++
    (d.witness.map fun witness => ("witness", witness)).toList)

def diagnosticLine (d : Diagnostic) : String :=
  s!"DIAG severity={d.severity.name} stage={d.stage.name} code={d.code} message={d.message}"

def diagnosticsDocument (ds : List Diagnostic) : Document :=
  .sequence (ds.map diagnosticDocument)

def number (x : Binary64) : String :=
  (Decimal.Layout.general 12).write x

def systemLine (s : Solution n) : String :=
  s!"SYSTEM kind={s.kind.name} consistent={s.consistent} pivot_product={number s.pivotProduct}" ++
    s!" normalizer_swaps={s.swapCount} elimination_steps={s.sweep.steps} cond_ind={number s.condition}"

def rowLines (label : String) (r : Row n) : List String :=
  r.toList.mapIdx fun i x => s!"{label} index={i} value={number x}"

def metricsLine (m : ResidualMetrics) (status : String) : String :=
  s!"METRICS res_l2={number m.l2} res_linf={number m.linf} res_rel={number m.relative} status={status}"

def solutionLines (s : Solution n) : List String :=
  match s.x, s.residual, s.metrics with
  | some x, some residual, some metrics =>
    rowLines "X" x ++ rowLines "RESIDUAL" residual ++
      [metricsLine metrics ((s.status.map Status.name).getD "None")]
  | _, _, _ => []

def stepLine (s : Step m n) : String :=
  s!"STEP pass={s.pass} column={s.column} target_row={s.row} source_row={s.sourceRow}" ++
    s!" action={s.action.name} target_multiplier={number s.targetMultiplier}" ++
    s!" copy_multiplier={number s.copyMultiplier} sign={s.sign.symbol} divisor={number s.divisor}"

def eventLine : Event n → String
  | .step s => stepLine s
  | e => s!"EVENT name={e.name}"

def solveLines (s : Solution n) (ds : List Diagnostic) (trace : Bool) : List String :=
  systemLine s :: solutionLines s ++ ds.map diagnosticLine ++
    if trace then s.trace.map eventLine else []

def eventDocument (e : Event n) : Document :=
  .mapping (("event", .text e.name) :: fields e)
where
  fields : Event n → List (String × Document)
    | .initialized g => [("matrix", .grid g)]
    | .snapshot stage g => [("stage", .text stage.name), ("matrix", .grid g)]
    | .rowMoved move =>
      [("moved_row", count move.movedRow), ("final_row", count move.finalRow),
        ("matrix", .grid move.grid)]
    | .step s =>
      [("pass_index", count s.pass), ("column", count s.column), ("target_row", count s.row),
        ("source_row", count s.sourceRow), ("target_multiplier", .real s.targetMultiplier),
        ("copy_multiplier", .real s.copyMultiplier), ("sign", .text s.sign.symbol),
        ("action", .text s.action.name), ("divisor", .real s.divisor), ("matrix", .grid s.grid)]
    | .classified product consistent =>
      [("consistent", .boolean consistent), ("pivot_product", .real product)]
    | .solved g x residual singular =>
      [("singular", .boolean singular), ("x", .row x), ("residual", .row residual),
        ("matrix", .grid g)]

def basisDocument (b : Basis) : Document :=
  .mapping (List.map (fun e : BasisEntry =>
    (toString e.unknown, Document.sequence [.integer e.row, .integer e.column])) b)

def metricsDocument (m : ResidualMetrics) : Document :=
  .mapping [("res_l2", .real m.l2), ("res_linf", .real m.linf), ("res_rel", .real m.relative)]

end Report

def Solution.exitCode (s : Solution n) : Nat :=
  if s.kind = .inconsistent ∨ s.status = some .fail then 2
  else if s.kind = .singular ∨ s.status = some .degraded then 1
  else 0

def checkExitCode (ds : List Diagnostic) : Nat :=
  if ds.any (·.severity = .error) then 2 else 0

namespace Report

open Document (count optional)

def solveSchema : String :=
  "slaegauss_solve_output_v1"

def checkSchema : String :=
  "slaegauss_check_output_v1"

def jsonLine (schema : String) (fields : List (String × Document)) : String :=
  Json.write (Document.finite (.mapping (("schema", .text schema) ::
    ("schema_version", count 1) :: fields)))

def solveJson (file : Path) (thresholds : Thresholds) (s : Solution n) (ds : List Diagnostic)
    (trace : Bool) : String :=
  jsonLine solveSchema (
    [("matrix_file", .text file.text), ("kind", .text s.kind.name),
      ("consistent", .boolean s.consistent), ("pivot_product", .real s.pivotProduct),
      ("x", optional .row s.x), ("residual", optional .row s.residual),
      ("residual_metrics", optional metricsDocument s.metrics),
      ("residual_status", optional (.text ·.name) s.status),
      ("basis", optional basisDocument s.basis), ("reduced_matrix", .grid s.grid),
      ("cond_ind", .real s.condition), ("exit_code", count s.exitCode),
      ("diagnostics", diagnosticsDocument ds), ("repro", thresholds.snapshot [s.facts])] ++
    if trace then [("trace", .sequence (s.trace.map eventDocument))] else [])

def refusalJson (ds : List Diagnostic) : String :=
  jsonLine solveSchema [("status", .text "fail"), ("diagnostics", diagnosticsDocument ds)]

def checkJson (file : Path) (ds : List Diagnostic) : String :=
  jsonLine checkSchema
    [("matrix_file", .text file.text),
      ("status", .text (if ds.any (·.severity = .error) then "fail" else "pass")),
      ("exit_code", count (checkExitCode ds)), ("diagnostics", diagnosticsDocument ds)]

end Report

end RowSweep
