import RowSweep.Document
import RowSweep.Thresholds

/-!
This module contains the reading of thresholds from a document. The settings are looked up block by block;
the first one that is missing, of the wrong type or out of range is the fault.
-/

namespace RowSweep

inductive ThresholdFault where
  | rootNotMapping
  | noMapping (key : String)
  | noText (key : String)
  | noTruth (key : String)
  | noNumber (key : String)
  | truthForNumber (key : String)
  | noKey (key : String)
  | notPositive (key : String)
  | zeroSnapRange
  | negativeEpsilon
  | bandOrder
  | bandGap
  deriving DecidableEq

namespace ThresholdFault

def message : ThresholdFault → String
  | rootNotMapping => "solver thresholds artifact root must be a mapping"
  | noMapping key => s!"missing or invalid mapping for key '{key}'"
  | noText key => s!"missing or invalid string for key '{key}'"
  | noTruth key => s!"missing or invalid bool for key '{key}'"
  | noNumber key => s!"missing or invalid float for key '{key}'"
  | truthForNumber key => s!"invalid numeric value for key '{key}'"
  | noKey key => s!"missing key '{key}'"
  | notPositive key => s!"key '{key}' must be null or an integer >= 1"
  | zeroSnapRange => "elimination zero_snap_relative must be within [0, 1)"
  | negativeEpsilon => "residual relative_epsilon must be >= 0"
  | bandOrder => "residual pass_max must be <= degraded_max"
  | bandGap => "residual fail_min_exclusive must equal degraded_max"

end ThresholdFault

inductive ThresholdError where
  | rejected (fault : ThresholdFault)
  | outOfRange
  deriving DecidableEq

namespace Thresholds

abbrev Block := List (String × Document)

namespace Block

def mapping (b : Block) (key : String) : Except ThresholdError Block :=
  match b.lookup key with
  | some (.mapping entries) => .ok entries
  | _ => .error (.rejected (.noMapping key))

def text (b : Block) (key : String) : Except ThresholdError String :=
  match b.lookup key with
  | some (.text s) => if s = "" then .error (.rejected (.noText key)) else .ok s
  | _ => .error (.rejected (.noText key))

def truth (b : Block) (key : String) : Except ThresholdError Bool :=
  match b.lookup key with
  | some (.boolean v) => .ok v
  | _ => .error (.rejected (.noTruth key))

def number (b : Block) (key : String) : Except ThresholdError Binary64 :=
  match b.lookup key with
  | some (.boolean _) => .error (.rejected (.truthForNumber key))
  | some (.integer i) => if (Binary64.ofInt i).isFinite then .ok (.ofInt i) else .error .outOfRange
  | some (.real x) => if x.isFinite then .ok x else .error (.rejected (.noNumber key))
  | _ => .error (.rejected (.noNumber key))

def positive (b : Block) (key : String) : Except ThresholdError (Option Int) :=
  match b.lookup key with
  | none => .error (.rejected (.noKey key))
  | some .null => .ok none
  | some (.integer i) => if i < 1 then .error (.rejected (.notPositive key)) else .ok (some i)
  | some _ => .error (.rejected (.notPositive key))

end Block

def sweepSettings (contract : Block) : Except ThresholdError SweepSettings := do
  let block ← contract.mapping "elimination"
  let zeroSnap ← block.number "zero_snap_relative"
  let integerRatio ← block.truth "integer_ratio_enabled"
  let pairwisePivoting ← block.truth "pairwise_pivoting_enabled"
  if zeroSnap.lt .zero || Binary64.one.le zeroSnap then throw (.rejected .zeroSnapRange)
  return ⟨zeroSnap, integerRatio, pairwisePivoting⟩

def residualBands (contract : Block) : Except ThresholdError ResidualBands := do
  let block ← contract.mapping "residual"
  let bands ← block.mapping "status_bands"
  let epsilon ← block.number "relative_epsilon"
  let passMax ← bands.number "pass_max"
  let degradedMax ← bands.number "degraded_max"
  let failMinExclusive ← bands.number "fail_min_exclusive"
  if epsilon.lt .zero then throw (.rejected .negativeEpsilon)
  if degradedMax.lt passMax then throw (.rejected .bandOrder)
  if !failMinExclusive.eqv degradedMax then throw (.rejected .bandGap)
  return ⟨epsilon, passMax, degradedMax, failMinExclusive⟩

def conditionPolicy (contract : Block) : Except ThresholdError ConditionPolicy := do
  let block ← contract.mapping "condition_indicator"
  let estimator ← block.mapping "estimator"
  let unavailable ← estimator.mapping "unavailable_policy"
  let bands ← block.mapping "bands"
  let estimatorId ← estimator.text "id"
  let unavailableCode ← unavailable.text "warning_code"
  let illConditionedCode ← bands.text "warning_code"
  let warnMax ← bands.number "warn_max"
  return ⟨estimatorId, unavailableCode, illConditionedCode, warnMax⟩

def ofDocument (document : Document) (artifact : String) : Except ThresholdError Thresholds :=
  match document with
  | .mapping root => do
    let contract ← Block.mapping root "numeric_contract"
    let sweep ← sweepSettings contract
    let residual ← residualBands contract
    let condition ← conditionPolicy contract
    let defaults ← Block.mapping root "solver_defaults"
    let expectedUnknowns ← defaults.positive "expected_unknowns"
    return ⟨sweep, residual, condition, expectedUnknowns, artifact⟩
  | _ => .error (.rejected .rootNotMapping)

end Thresholds

end RowSweep
