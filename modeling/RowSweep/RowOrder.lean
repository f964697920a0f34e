import RowSweep.Grid

/-!
This module contains the ordering of rows before the sweep: rows that start with zero move above those
that do not, so that the bottom row starts with a nonzero entry whenever there is one.
-/

namespace RowSweep

structure RowMove (m n : Nat) where
  movedRow : Nat
  finalRow : Nat
  grid : Grid m n

namespace RowOrder

def startsWithZero (row : Row (n + 1)) : Bool :=
  row[0].isZero

/--
Swaps the row at `i` upward as long as the row above it starts with a nonzero entry. Gives the grid and
the place where the row ends.
-/
def bubbleUp (g : Grid m (n + 1)) : (i : Nat) → i < m → Grid m (n + 1) × Nat
  | 0, _ => (g, 0)
  | i + 1, h =>
    have hi := Nat.lt_of_succ_lt h
    if startsWithZero g[i] then (g, i + 1) else bubbleUp (g.swap i (i + 1)) i hi

structure State (m n : Nat) where
  grid : Grid m n
  swaps : Nat
  moves : Array (RowMove m n)

def place (state : State m (n + 1)) (i : Fin m) : State m (n + 1) :=
  if startsWithZero state.grid[i] then
    let (grid, final) := bubbleUp state.grid i i.isLt
    if final = i.val then state
    else ⟨grid, state.swaps + (i - final), state.moves.push ⟨i, final, grid⟩⟩
  else state

end RowOrder

def Grid.orderRows (g : Grid m (n + 1)) : RowOrder.State m (n + 1) :=
  (List.finRange m).foldl RowOrder.place ⟨g, 0, #[]⟩

end RowSweep
