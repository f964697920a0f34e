import RowSweep.Grid
import RowSweep.Summation

/-!
This module contains the two ways to read a solution off a reduced grid: substitution along the pivots
when every unknown has one, and substitution along a basis of rows with all other unknowns at zero.
-/

namespace RowSweep

/--
An unknown with the row that it is read from and the column of its coefficient there. In a well formed
entry the column is the unknown.
-/
structure BasisEntry where
  unknown : Int
  row : Int
  column : Int
  deriving DecidableEq

abbrev Basis := List BasisEntry

inductive InvariantFault where
  | zeroPivot (row column : Nat)
  | malformedEntry (entry : BasisEntry)
  | zeroBasisPivot (row column : Nat)
  deriving DecidableEq

namespace InvariantFault

def code : String :=
  "E_SOLVER_INVARIANT"

def message : InvariantFault → String
  | zeroPivot row column => s!"zero pivot at row {row}, column {column} during back substitution"
  | malformedEntry e => s!"malformed basis entry {e.unknown} -> ({e.row}, {e.column})"
  | zeroBasisPivot row column => s!"basis pivot at row {row}, column {column} is zero"

end InvariantFault

namespace Row

def tailSum (products : Summation) (row : Row (n + 1)) (x : Row n) (k : Fin n) : Binary64 :=
  products (((List.finRange n).filter (k < ·)).map fun j => x[j] * row[j.castSucc])

end Row

namespace Grid

def substitute (products : Summation) (g : Grid m (n + 1)) (h : n ≤ m) (x : Row n) (k : Fin n) :
    Except InvariantFault (Row n) :=
  let row := g[pivotRow h k]
  let pivot := row[k.castSucc]
  if pivot.isZero then .error (.zeroPivot (pivotRow h k) k)
  else .ok (x.set k ((row.constant - row.tailSum products x k) / pivot) k.isLt)

def backSubstitute (products : Summation) (g : Grid m (n + 1)) (h : n ≤ m) :
    Except InvariantFault (Row n) :=
  (List.finRange n).reverse.foldlM (g.substitute products h) (Vector.replicate n .zero)

def similarRow? (g : Grid m n) (i : Fin m) : Option (Fin m) :=
  (List.finRange m).find? fun k => k != i && Row.eqv g[k] g[i]

def duplicateOf? (g : Grid m n) (i : Fin m) : Option (Fin m) :=
  (g.similarRow? i).filter (· < i)

end Grid

namespace Basis

def insertNew (e : BasisEntry) : Basis → Basis
  | [] => [e]
  | f :: rest =>
    if f.unknown < e.unknown then f :: insertNew e rest
    else if f.unknown = e.unknown then f :: rest
    else e :: f :: rest

def insert (e : BasisEntry) : Basis → Basis
  | [] => [e]
  | f :: rest =>
    if f.unknown < e.unknown then f :: insert e rest
    else if f.unknown = e.unknown then e :: rest
    else e :: f :: rest

def ofRow? (g : Grid m (n + 1)) (i : Fin m) : Option BasisEntry :=
  if (g.duplicateOf? i).isSome then none
  else (Row.leading? g[i]).map fun c => ⟨c.val, i.val, c.val⟩

def addRow (g : Grid m (n + 1)) (basis : Basis) (i : Fin m) : Basis :=
  match ofRow? g i with
  | some e => basis.insertNew e
  | none => basis

def ofGrid (g : Grid m (n + 1)) : Basis :=
  (List.finRange m).foldl (addRow g) []

def has (basis : Basis) (unknown : Int) : Bool :=
  List.any basis (·.unknown == unknown)

def freeColumns (basis : Basis) (n : Nat) : List Nat :=
  (List.range n).filter fun c => !basis.has c

def reduce (basis : Basis) (row : Row (n + 1)) (x : Row n) (c : Fin n) : Binary64 :=
  (List.finRange n).foldl
    (fun value j => if c < j ∧ basis.has j.val then value - x[j] * row[j.castSucc] else value)
    row.constant

def substitute (basis : Basis) (g : Grid m (n + 1)) (x : Row n) (e : BasisEntry) :
    Except InvariantFault (Row n) :=
  if h : e.column = e.unknown ∧ 0 ≤ e.unknown ∧ e.unknown < n ∧ 0 ≤ e.row ∧ e.row < m then
    let c : Fin n := ⟨e.unknown.toNat, by omega⟩
    let row := g[e.row.toNat]
    let pivot := row[c.castSucc]
    if pivot.isZero then .error (.zeroBasisPivot e.row.toNat c)
    else .ok (x.set c (basis.reduce row x c / pivot) c.isLt)
  else
    .error (.malformedEntry e)

def particularSolution (basis : Basis) (g : Grid m (n + 1)) : Except InvariantFault (Row n) :=
  (List.reverse basis).foldlM (basis.substitute g) (Vector.replicate n .zero)

end Basis

end RowSweep
