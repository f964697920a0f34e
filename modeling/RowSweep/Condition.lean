import RowSweep.Grid
import RowSweep.Thresholds
import RowSweep.Decimal.Layout

/-!
This module contains the condition indicator: the ratio of the smallest to the largest pivot of a
triangular factorization. The factorization is a library's; there is one with row exchanges to run with.
-/

namespace RowSweep

abbrev Estimator := (n : Nat) → Grid n n → Option Binary64

/--
A triangular factorization: a block with the pivots on its diagonal, or none for a block that it does not take.
-/
abbrev Factorization := (n : Nat) → Grid n n → Option (Grid n n)

namespace Factorization

def pivotIndex (a : Grid n n) (k : Fin n) : Fin n :=
  (List.finRange n).foldl
    (fun best i => if best < i ∧ (a[best][k].abs.lt a[i][k].abs) then i else best) k

def leastNormal : Binary64 :=
  Binary64.one.scale (-1022)

/--
What is left of `x` in units of the pivot. The reciprocal of a pivot is taken once, unless it would overflow.
-/
def quotient (pivot x : Binary64) : Binary64 :=
  if leastNormal.le pivot.abs then x * (.one / pivot) else x / pivot

def eliminateRow (a : Grid n n) (k : Fin n) (a' : Grid n n) (i : Fin n) : Grid n n :=
  if k < i then
    let factor := quotient a[k][k] a[i][k]
    let row := Vector.ofFn fun j => if k < j then a[i][j] - factor * a[k][j] else a[i][j]
    a'.set i row i.isLt
  else a'

def factorColumn (a : Grid n n) (k : Fin n) : Grid n n :=
  let p := pivotIndex a k
  let a := a.swap k p k.isLt p.isLt
  if a[k][k].isZero then a else (List.finRange n).foldl (eliminateRow a k) a

def partialPivoting : Factorization := fun n a =>
  if a.isFinite then some ((List.finRange n).foldl factorColumn a) else none

end Factorization

namespace Condition

def pivotMagnitudes (a : Grid n n) : Row n :=
  Vector.ofFn fun i => a[i][i].abs

/--
The ratio of the smallest to the largest pivot. There is none without a factorization or if a pivot is not
finite; an empty block has ratio one, and one whose pivots are all zero has ratio zero.
-/
def pivotRatio (factor : Factorization) : Estimator := fun n a =>
  if n = 0 then some .one
  else
    match factor n a with
    | none => none
    | some factored =>
      let magnitudes := pivotMagnitudes factored
      if !magnitudes.isFinite then none
      else
        let largest := magnitudes.peak
        let smallest := magnitudes.foldl (fun least v => least.min v) largest
        if largest.isPositive then some (smallest / largest) else some .zero

end Condition

structure Warning where
  code : String
  message : String
  deriving DecidableEq

namespace ConditionPolicy

def judge (policy : ConditionPolicy) (estimate : Option Binary64) : Binary64 × List Warning :=
  match estimate.filter (·.isFinite) with
  | none => (.nan, [⟨policy.unavailableCode, "condition indicator unavailable"⟩])
  | some indicator =>
    if indicator.le policy.warnMax then
      let shown := (Decimal.Layout.scientific 3).write indicator
      let bound := (Decimal.Layout.scientific 1).write policy.warnMax
      (indicator, [⟨policy.illConditionedCode,
        s!"condition indicator {shown} is <= warn_max {bound}"⟩])
    else (indicator, [])

end ConditionPolicy

end RowSweep
