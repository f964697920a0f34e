import RowSweep.Decimal.Basic

/-!
This module contains the numeric settings of a solve and their default values.
-/

namespace RowSweep

structure SweepSettings where
  zeroSnap : Binary64
  integerRatio : Bool
  pairwisePivoting : Bool
  deriving DecidableEq

structure ResidualBands where
  epsilon : Binary64
  passMax : Binary64
  degradedMax : Binary64
  failMinExclusive : Binary64
  deriving DecidableEq

structure ConditionPolicy where
  estimatorId : String
  unavailableCode : String
  illConditionedCode : String
  warnMax : Binary64
  deriving DecidableEq

structure Thresholds where
  sweep : SweepSettings
  residual : ResidualBands
  condition : ConditionPolicy
  expectedUnknowns : Option Int
  artifact : String
  deriving DecidableEq

namespace ResidualBands

def default : ResidualBands where
  epsilon := (Decimal.mk 22250738585072014 (-324)).toBinary64 false
  passMax := (Decimal.mk 1 (-9)).toBinary64 false
  degradedMax := (Decimal.mk 1 (-6)).toBinary64 false
  failMinExclusive := (Decimal.mk 1 (-6)).toBinary64 false

end ResidualBands

def ConditionPolicy.builtinEstimatorId : String :=
  "lu_rcond_proxy_v1"

namespace Thresholds

def default : Thresholds where
  sweep := ⟨(Decimal.mk 1 (-13)).toBinary64 false, true, true⟩
  residual := .default
  condition :=
    ⟨ConditionPolicy.builtinEstimatorId, "W_NUM_COND_UNAVAILABLE", "W_NUM_ILL_CONDITIONED",
      (Decimal.mk 1 (-8)).toBinary64 false⟩
  expectedUnknowns := none
  artifact := "thresholds_v1.yaml"

end Thresholds

end RowSweep
