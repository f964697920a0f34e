import RowSweep.Multipliers
import RowSweep.Thresholds

/-!
This module contains the sweep that brings an augmented grid into echelon form from the bottom up. A pass
for each column works down the pairs of adjacent rows that have no pivot yet and carries a nonzero entry
to the lowest of them, where it becomes the pivot. The pivot of the first pivot column ends in the bottom
row, the next one in the row above it, and so on.
-/

namespace RowSweep

inductive Action where
  | skip
  | swap
  | combine
  | swapCombine
  deriving DecidableEq

structure Step (m n : Nat) where
  pass : Nat
  column : Nat
  row : Nat
  sourceRow : Nat
  action : Action
  targetMultiplier : Binary64
  copyMultiplier : Binary64
  sign : Sign
  divisor : Binary64
  grid : Grid m n

namespace Step

def plain (column row : Nat) (action : Action) (grid : Grid m n) : Step m n :=
  ⟨column, column, row, row + 1, action, .zero, .zero, .plus, .one, grid⟩

def combined (settings : SweepSettings) (g : Grid m n) (column r : Nat) (h : r + 1 < m)
    (action : Action) (k : Multipliers) : Step m n :=
  have hr := Nat.lt_of_succ_lt h
  let row := k.combine (if k.integral then .zero else settings.zeroSnap) g[r] g[r + 1]
  let (row, divisor) := row.rescale
  ⟨column, column, r, r + 1, action, k.target, k.copy, k.sign, divisor, g.set r row⟩

/--
The multipliers for a pair of rows with entries `upper` and `lower` in the column. Whole ones are taken
only if the combined row stays in the exact range.
-/
def multipliers (settings : SweepSettings) (g : Grid m n) (r : Nat) (h : r + 1 < m)
    (upper lower : Binary64) : Multipliers :=
  have hr := Nat.lt_of_succ_lt h
  let k := Multipliers.ofEntries settings.integerRatio upper lower
  if k.integral && !k.staysExact g[r] g[r + 1] then .scaling upper lower else k

/--
The step on row `r` and the row below it. A zero in the upper row is left alone, one in the lower row
moves up, and two nonzero entries cancel. Without whole multipliers the larger entry goes into the lower
row first, if that is wanted.
-/
def ofPair (settings : SweepSettings) (g : Grid m (n + 1)) (c : Fin n) (r : Nat) (h : r + 1 < m) :
    Step m (n + 1) :=
  have hr := Nat.lt_of_succ_lt h
  let upper := g[r][c.castSucc]
  let lower := g[r + 1][c.castSucc]
  if upper.isZero then plain c r .skip g
  else if lower.isZero then plain c r .swap (g.swap r (r + 1))
  else
    let k := multipliers settings g r h upper lower
    if settings.pairwisePivoting && !k.integral && lower.abs.lt upper.abs then
      combined settings (g.swap r (r + 1)) c r h .swapCombine (.scaling lower upper)
    else
      combined settings g c r h .combine k

end Step

inductive SweepEnd where
  | contradiction
  | divisorOverflow
  deriving DecidableEq

structure SweepSummary where
  passes : Nat
  steps : Nat
  combines : Nat
  swaps : Nat
  pivotSwaps : Nat
  pivotColumns : List Nat
  freeColumns : List Nat
  aborted : Bool
  deriving DecidableEq

inductive SweepNote where
  | passDone (column : Nat) (openRows : Nat)
  | contradiction (column : Nat)

structure Sweep (m n : Nat) where
  grid : Grid m (n + 1)
  openRows : Nat
  openRows_le : openRows ≤ m
  passes : Nat
  steps : Nat
  combines : Nat
  swaps : Nat
  pivotSwaps : Nat
  pivotColumns : List Nat
  freeColumns : List Nat
  trace : Array (Step m (n + 1))
  notes : Array SweepNote
  ended : Option SweepEnd

namespace Sweep

def start (g : Grid m (n + 1)) (h : n ≤ m) : Sweep m n where
  grid := g
  openRows := n
  openRows_le := h
  passes := 0
  steps := 0
  combines := 0
  swaps := 0
  pivotSwaps := 0
  pivotColumns := []
  freeColumns := []
  trace := #[]
  notes := #[]
  ended := none

def record (s : Sweep m n) (step : Step m (n + 1)) : Sweep m n :=
  if step.divisor.isFinite then
    let s := { s with
      grid := step.grid
      steps := s.steps + 1
      combines := s.combines +
        match step.action with
        | .combine | .swapCombine => 1
        | _ => 0
      swaps := s.swaps +
        match step.action with
        | .swap => 1
        | _ => 0
      pivotSwaps := s.pivotSwaps +
        match step.action with
        | .swapCombine => 1
        | _ => 0
      trace := s.trace.push step }
    if step.grid.isConsistent then s
    else { s with
      notes := s.notes.push (.contradiction step.column)
      ended := some .contradiction }
  else
    { s with grid := step.grid, ended := some .divisorOverflow }

def pairs (settings : SweepSettings) (c : Fin n) (s : Sweep m n) : (k : Nat) → k < m → Sweep m n
  | 0, _ => s
  | k + 1, h =>
    let s := s.pairs settings c k (Nat.lt_of_succ_lt h)
    if s.ended.isNone then s.record (.ofPair settings s.grid c k h) else s

def settle (c : Fin n) (s : Sweep m n) : Sweep m n :=
  match h : s.openRows with
  | 0 => { s with
      freeColumns := s.freeColumns ++ [c.val]
      notes := s.notes.push (.passDone c 0) }
  | k + 1 =>
    have := s.openRows_le
    if s.grid[k][c.castSucc].isZero then
      { s with
        freeColumns := s.freeColumns ++ [c.val]
        notes := s.notes.push (.passDone c (k + 1)) }
    else
      { s with
        openRows := k
        openRows_le := by omega
        pivotColumns := s.pivotColumns ++ [c.val]
        notes := s.notes.push (.passDone c k) }

def pass (settings : SweepSettings) (s : Sweep m n) (c : Fin n) : Sweep m n :=
  if s.ended.isSome then s
  else
    let s := { s with passes := s.passes + 1 }
    let s := if h : s.openRows - 1 < m then s.pairs settings c (s.openRows - 1) h else s
    if s.ended.isSome then s else s.settle c

def run (settings : SweepSettings) (g : Grid m (n + 1)) (h : n ≤ m) : Sweep m n :=
  (List.finRange n).foldl (pass settings) (start g h)

def summary (s : Sweep m n) : SweepSummary :=
  ⟨s.passes, s.steps, s.combines, s.swaps, s.pivotSwaps, s.pivotColumns, s.freeColumns,
    s.ended.isSome⟩

end Sweep

end RowSweep
