import RowSweep.Diagnostic.Basic

/-!
This module contains the catalog of diagnostic codes: what is known of a finding from its code alone.
-/

namespace RowSweep

structure CatalogEntry where
  code : String
  severity : Severity
  stage : Stage
  action : String
  code_ne : code ≠ ""
  action_ne : action ≠ ""

inductive CatalogFault where
  | emptyCode
  | emptyAction (code : String)
  | duplicate (code : String)
  deriving DecidableEq

namespace CatalogFault

def message : CatalogFault → String
  | emptyCode => "diagnostic catalog code must be non-empty"
  | emptyAction code => s!"diagnostic catalog entry '{code}' suggested_action must be non-empty"
  | duplicate code => s!"duplicate diagnostic catalog code: {code}"

end CatalogFault

namespace CatalogEntry

def make (code : String) (severity : Severity) (stage : Stage) (action : String) :
    Except CatalogFault CatalogEntry :=
  if hc : code = "" then .error .emptyCode
  else if ha : action = "" then .error (.emptyAction code)
  else .ok ⟨code, severity, stage, action, hc, ha⟩

end CatalogEntry

structure Catalog where
  entries : List CatalogEntry
  nodup : (entries.map (·.code)).Nodup

namespace Catalog

def repeated? : List CatalogEntry → Option String
  | [] => none
  | entries => go [] entries
where
  go (seen : List String) : List CatalogEntry → Option String
    | [] => none
    | e :: rest => if seen.contains e.code then some e.code else go (e.code :: seen) rest

def ofEntries (entries : List CatalogEntry) : Except CatalogFault Catalog :=
  if h : (entries.map (·.code)).Nodup then .ok ⟨entries, h⟩
  else .error (.duplicate ((repeated? entries).getD ""))

def find? (catalog : Catalog) (code : String) : Option CatalogEntry :=
  catalog.entries.find? (·.code == code)

def fields : List String :=
  ["code", "severity", "solver_stage", "suggested_action"]

def canonical : Catalog where
  entries := [
    ⟨"E_INPUT_SHAPE_INVALID", .error, .parse,
      "provide N rows of N + 1 real numbers (coefficients then constant)", by decide, by decide⟩,
    ⟨"E_INPUT_NONFINITE", .error, .parse,
      "replace NaN/inf entries with finite values", by decide, by decide⟩,
    ⟨"E_INPUT_SIZE_MISMATCH", .error, .parse,
      "match the configured expected_unknowns or clear the size contract", by decide, by decide⟩,
    ⟨"E_CLI_MATRIX_LOAD_FAILED", .error, .parse,
      "pass a readable JSON/YAML file holding a list of rows or a 'matrix' key", by decide, by decide⟩,
    ⟨"E_SYS_INCONSISTENT", .error, .classify,
      "remove or correct the contradictory equation (0 = nonzero constant)", by decide, by decide⟩,
    ⟨"W_SYS_SINGULAR", .warning, .classify,
      "the reported vector is one particular solution with free variables at zero",
      by decide, by decide⟩,
    ⟨"W_SYS_BASIS_INCOMPLETE", .warning, .substitute,
      "inspect dependent rows; the basis map does not reproduce every equation",
      by decide, by decide⟩,
    ⟨"W_NUM_RESIDUAL_DEGRADED", .warning, .residual,
      "inspect coefficient scaling and conditioning of the system", by decide, by decide⟩,
    ⟨"E_NUM_RESIDUAL_FAILED", .error, .residual,
      "the solution does not satisfy the original equations; inspect conditioning",
      by decide, by decide⟩,
    ⟨"W_NUM_ILL_CONDITIONED", .warning, .classify,
      "inspect conditioning; small pivots amplify rounding", by decide, by decide⟩,
    ⟨"W_NUM_COND_UNAVAILABLE", .warning, .classify,
      "review condition-estimator support for this input", by decide, by decide⟩]
  nodup := by decide

end Catalog

end RowSweep
