import RowSweep.Binary64.Basic

/-!
This module contains grids of binary64 values. In an augmented grid the last column holds the constants
and the columns before it the coefficients of the unknowns.
-/

namespace RowSweep

instance instGetElemVectorFin : GetElem (Vector α n) (Fin n) α fun _ _ => True where
  getElem xs i _ := xs.get i

theorem getElem_fin (xs : Vector α n) (i : Fin n) : xs[i] = xs[i.val] := rfl

theorem toList_eq_map_finRange (xs : Vector α n) : xs.toList = (List.finRange n).map fun i => xs[i] := by
  apply List.ext_getElem
  . simp
  . intro i hi hi'
    simp [getElem_fin]

abbrev Row (n : Nat) := Vector Binary64 n

abbrev Grid (m n : Nat) := Vector (Row n) m

namespace Row

def eqv (x y : Row n) : Bool :=
  (List.finRange n).all fun j => x[j].eqv y[j]

def peak (row : Row n) : Binary64 :=
  row.foldl (fun largest v => largest.max v.abs) .zero

def isFinite (row : Row n) : Bool :=
  row.all (·.isFinite)

def constant (row : Row (n + 1)) : Binary64 :=
  row[n]

def coefficients (row : Row (n + 1)) : Row n :=
  Vector.ofFn fun j => row[j.castSucc]

def isBlank (row : Row (n + 1)) : Bool :=
  Nat.all n fun j _ => row[j].isZero

def isContradictory (row : Row (n + 1)) : Bool :=
  row.isBlank && !row.constant.isZero

def leading? (row : Row (n + 1)) : Option (Fin n) :=
  (List.finRange n).find? fun j => !row[j.castSucc].isZero

end Row

namespace Grid

def coefficients (g : Grid m (n + 1)) : Grid m n :=
  g.map Row.coefficients

def constants (g : Grid m (n + 1)) : Row m :=
  g.map Row.constant

def isFinite (g : Grid m n) : Bool :=
  g.all Row.isFinite

def place? (size : Nat) (i : Int) : Option (Fin size) :=
  if h : 0 ≤ i ∧ i < size then some ⟨i.toNat, by omega⟩
  else if h : i < 0 ∧ -(size : Int) ≤ i then some ⟨(i + size).toNat, by omega⟩
  else none

def setCell? (g : Grid m n) (row column : Int) (v : Binary64) : Option (Grid m n) := do
  let i ← place? m row
  let j ← place? n column
  return g.set i (g[i].set j v)

def contradictoryRows (g : Grid m (n + 1)) : List (Fin m) :=
  (List.finRange m).filter fun i => g[i].isContradictory

def isConsistent (g : Grid m (n + 1)) : Bool :=
  g.all fun row => !row.isContradictory

/-!
### Pivots

The pivot of unknown `k` belongs in row `n - 1 - k`, on the antidiagonal of the coefficient block.
-/

def pivotRow (h : n ≤ m) (k : Fin n) : Fin m :=
  ⟨n - 1 - k, by omega⟩

def pivot (g : Grid m (n + 1)) (h : n ≤ m) (k : Fin n) : Binary64 :=
  g[pivotRow h k][k.castSucc]

def pivotProduct (g : Grid m (n + 1)) (h : n ≤ m) : Binary64 :=
  (List.finRange n).foldl (fun product k => product * g.pivot h k) .one

def hasFullPivots (g : Grid m (n + 1)) (h : n ≤ m) : Bool :=
  (List.finRange n).all fun k => !(g.pivot h k).isZero

end Grid

end RowSweep
