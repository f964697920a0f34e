import RowSweep.BackSubstitution
import RowSweep.Condition
import RowSweep.Residual
import RowSweep.RowOrder
import RowSweep.Sweep

/-!
This module contains sheets: grids of any size that are worked on one operation at a time. An operation
that reaches beyond the sheet fails and leaves what it did before.
-/

namespace RowSweep

structure Sheet where
  rows : Nat
  columns : Nat
  grid : Grid rows columns

namespace Sheet

inductive Failure where
  | outOfRange
  | noColumns
  | zeroEntry
  | lengthMismatch
  | invariant (fault : InvariantFault)
  | divisorOverflow
  deriving DecidableEq

namespace Failure

def describe? : Failure → Option (Option String × String)
  | zeroEntry => some (none, "row multipliers need two nonzero pivot-column entries")
  | lengthMismatch => some (none, "solution length does not match the number of unknowns")
  | invariant fault => some (some InvariantFault.code, fault.message)
  | _ => none

end Failure

abbrev Result (α : Type) := Sheet × Except Failure α

def rowIndex (s : Sheet) (i : Int) : Except Failure (Fin s.rows) :=
  match Grid.place? s.rows i with
  | some i => .ok i
  | none => .error .outOfRange

def withGrid (s : Sheet) (g : Grid s.rows s.columns) : Sheet :=
  ⟨s.rows, s.columns, g⟩

def update (s : Sheet) (change : Except Failure (Grid s.rows s.columns × α)) : Result α :=
  match change with
  | .ok (g, answer) => (s.withGrid g, .ok answer)
  | .error e => (s, .error e)

def orderRows (s : Sheet) : Result (Nat × Σ m n, Array (RowMove m n)) :=
  match s with
  | ⟨m, 0, g⟩ => (⟨m, 0, g⟩, if m < 2 then .ok (0, ⟨m, 0, #[]⟩) else .error .outOfRange)
  | ⟨m, n + 1, g⟩ =>
    let state := g.orderRows
    (⟨m, n + 1, state.grid⟩, .ok (state.swaps, ⟨m, n + 1, state.moves⟩))

def shortSweep (settings : SweepSettings) (g : Grid m (n + 1)) (h : m < n) :
    Sweep m n × Bool :=
  let start : Sweep m n :=
    ⟨g, m, Nat.le_refl m, 1, 0, 0, 0, 0, [], [], #[], #[], none⟩
  let swept := if h' : m - 1 < m then start.pairs settings ⟨0, by omega⟩ (m - 1) h' else start
  (swept, swept.ended.isSome)

def sweep (s : Sheet) (settings : SweepSettings) : Result (SweepSummary × Σ m n, Array (Step m n)) :=
  match s with
  | ⟨m, 0, g⟩ => (⟨m, 0, g⟩, .ok (⟨0, 0, 0, 0, 0, [], [], false⟩, ⟨m, 0, #[]⟩))
  | ⟨m, n + 1, g⟩ =>
    let (swept, complete) :=
      if h : n ≤ m then (Sweep.run settings g h, true) else shortSweep settings g (by omega)
    let answer :=
      if swept.ended = some .divisorOverflow then .error .divisorOverflow
      else if complete then .ok (swept.summary, ⟨m, n + 1, swept.trace⟩)
      else .error .outOfRange
    (⟨m, n + 1, swept.grid⟩, answer)

def combine (s : Sheet) (target source : Int) (integerRatio : Bool) (zeroSnap pivot lower : Binary64) :
    Result Multipliers :=
  s.update do
    let k ← match Multipliers.ofEntries? integerRatio pivot lower with
      | some k => .ok k
      | none => .error .zeroEntry
    let i ← s.rowIndex target
    let j ← s.rowIndex source
    return (s.grid.set i (k.combine zeroSnap s.grid[i] s.grid[j]), k)

def rescale (s : Sheet) (row : Int) : Result Binary64 :=
  match s.rowIndex row with
  | .error e => (s, .error e)
  | .ok i =>
    if s.columns = 0 then (s, .error .noColumns)
    else
      let (row, divisor) := s.grid[i].rescale
      (s.withGrid (s.grid.set i row),
        if divisor.isFinite then .ok divisor else .error .divisorOverflow)

def swap (s : Sheet) (first second : Int) : Result Unit :=
  s.update do
    let i ← s.rowIndex first
    let j ← s.rowIndex second
    return (s.grid.swap i j, ())

def setCell (s : Sheet) (row column : Int) (v : Binary64) : Result Unit :=
  s.update <|
    match s.grid.setCell? row column v with
    | some g => .ok (g, ())
    | none => .error .outOfRange

structure Classification where
  contradictoryRows : List Nat
  consistent : Bool
  pivotProduct : Binary64
  fullPivots : Bool

def classify (s : Sheet) : Except Failure Classification :=
  match s with
  | ⟨_, 0, _⟩ => .error .outOfRange
  | ⟨m, n + 1, g⟩ =>
    if h : n ≤ m then
      .ok ⟨g.contradictoryRows.map (·.val), g.isConsistent, g.pivotProduct h, g.hasFullPivots h⟩
    else .error .outOfRange

def backSubstitute (products : Summation) (s : Sheet) : Except Failure (List Binary64) :=
  match s with
  | ⟨_, 0, _⟩ => .error .noColumns
  | ⟨m, n + 1, g⟩ =>
    if h : n ≤ m then
      match g.backSubstitute products h with
      | .ok x => .ok x.toList
      | .error fault => .error (.invariant fault)
    else
      match (List.finRange m).find? fun (i : Fin m) => g[i][n - 1 - i.val].isZero with
      | some i => .error (.invariant (.zeroPivot i.val (n - 1 - i.val)))
      | none => .error .outOfRange

def similarRow (s : Sheet) (row : Int) : Except Failure (Option Nat) :=
  if s.rows = 0 ∨ s.rows = 1 ∧ row = 0 then .ok none
  else do
    let i ← s.rowIndex row
    if row < 0 then
      return ((List.finRange s.rows).find? fun k => Row.eqv s.grid[k] s.grid[i]).map (·.val)
    else
      return (s.grid.similarRow? i).map (·.val)

def basis (s : Sheet) : Basis × List Nat :=
  match s with
  | ⟨_, 0, _⟩ => ([], [])
  | ⟨_, n + 1, g⟩ => (.ofGrid g, (Basis.ofGrid g).freeColumns n)

def particularSolution (s : Sheet) (given : Option Basis) :
    Except Failure (List Binary64 × List Nat) :=
  match s with
  | ⟨_, 0, _⟩ => .error .noColumns
  | ⟨_, n + 1, g⟩ =>
    let basis := given.getD (.ofGrid g)
    match basis.particularSolution g with
    | .ok x => .ok (x.toList, basis.freeColumns n)
    | .error fault => .error (.invariant fault)

def withSolution (s : Sheet) (x : List Binary64)
    (ask : {m n : Nat} → Grid m (n + 1) → Row n → α) : Except Failure α :=
  match s with
  | ⟨_, 0, _⟩ => .error (if x.isEmpty then .outOfRange else .lengthMismatch)
  | ⟨_, n + 1, g⟩ =>
    if h : x.length = n then .ok (ask g ⟨x.toArray, by simpa using h⟩) else .error .lengthMismatch

def residual (s : Sheet) (x : List Binary64) : Except Failure (List Binary64) :=
  s.withSolution x fun g x => (g.residual x).toList

def residualMetrics (numerics : Numerics) (s : Sheet) (x : List Binary64) (epsilon : Binary64) :
    Except Failure ResidualMetrics :=
  s.withSolution x fun g x => g.residualMetrics numerics x epsilon

def blockCondition (factor : Factorization) (g : Grid m n) : Option Binary64 :=
  if h : m = n then Condition.pivotRatio factor n (h ▸ g) else none

def condition (factor : Factorization) (s : Sheet) (allColumns : Bool) : Option Binary64 :=
  match s with
  | ⟨_, 0, g⟩ => blockCondition factor g
  | ⟨_, _ + 1, g⟩ =>
    if allColumns then blockCondition factor g else blockCondition factor g.coefficients

end Sheet

end RowSweep
