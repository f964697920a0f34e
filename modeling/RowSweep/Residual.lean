import RowSweep.Numerics
import RowSweep.Thresholds

/-!
This module contains the residual of a solution in the system it was found for, its norms, and the verdict
on them.
-/

namespace RowSweep

structure ResidualMetrics where
  l2 : Binary64
  linf : Binary64
  relative : Binary64
  deriving DecidableEq

inductive Status where
  | pass
  | degraded
  | fail
  deriving DecidableEq

namespace Status

def name : Status → String
  | pass => "pass"
  | degraded => "degraded"
  | fail => "fail"

def ofName? : String → Option Status
  | "pass" => some pass
  | "degraded" => some degraded
  | "fail" => some fail
  | _ => none

end Status

namespace Row

def residual (row : Row (n + 1)) (x : Row n) : Binary64 :=
  (List.finRange n).foldl (fun rest j => rest - x[j] * row[j.castSucc]) row.constant

def l2Norm (products : Summation) (v : Row n) : Binary64 :=
  (products (v.toList.map fun e => e * e)).sqrt

def absSum (magnitudes : Summation) (v : Row n) : Binary64 :=
  magnitudes (v.toList.map Binary64.abs)

end Row

namespace Grid

def residual (g : Grid m (n + 1)) (x : Row n) : Row m :=
  g.map fun row => row.residual x

def coefficientNorm (magnitudes : Summation) (g : Grid m (n + 1)) : Binary64 :=
  g.foldl (fun largest row => largest.max (row.coefficients.absSum magnitudes)) .zero

def denominator (magnitudes : Summation) (g : Grid m (n + 1)) (x : Row n) (epsilon : Binary64) : Binary64 :=
  g.coefficientNorm magnitudes * x.peak + g.constants.peak + epsilon

/--
The norms of the residual. The relative one compares it with the magnitudes that met in the system; if
those are all zero it is zero or infinite.
-/
def residualMetrics (numerics : Numerics) (g : Grid m (n + 1)) (x : Row n) (epsilon : Binary64) :
    ResidualMetrics :=
  let residual := g.residual x
  let linf := residual.peak
  let denominator := g.denominator numerics.magnitudes x epsilon
  ⟨residual.l2Norm numerics.products, linf,
    if denominator.isZero then if linf.isZero then .zero else .infinite false
    else linf / denominator⟩

end Grid

namespace ResidualBands

/--
The verdict on a relative residual. There is none in a gap between the degraded band and the failures.
-/
def status? (bands : ResidualBands) (relative : Binary64) : Option Status :=
  if !relative.isFinite then some .fail
  else if relative.le bands.passMax then some .pass
  else if relative.le bands.degradedMax then some .degraded
  else if bands.failMinExclusive.lt relative then some .fail
  else none

end ResidualBands

end RowSweep
