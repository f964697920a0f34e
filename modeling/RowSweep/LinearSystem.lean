import RowSweep.Grid
import RowSweep.Document
import RowSweep.Decimal.Reader

/-!
This module contains the way from a document to a system of equations: the document has to be a
rectangular arrangement of numbers with one more column than rows, of the expected size, and finite. The
first of these that fails is the fault.
-/

namespace RowSweep

structure NumberArray where
  shape : List Nat
  cells : List Binary64

namespace NumberArray

inductive Failure where
  | irregular
  | outOfRange
  deriving DecidableEq

def maxDimensions : Nat :=
  64

def leadingShape : Document → List Nat
  | .sequence [] => [0]
  | .sequence (first :: rest) => (rest.length + 1) :: leadingShape first
  | _ => []

def hasShape : List Nat → Document → Bool
  | [], document => !(document matches .sequence _)
  | k :: shape, .sequence items => items.length == k && items.all (hasShape shape)
  | _ :: _, _ => false

def shape? (document : Document) : Option (List Nat) :=
  let shape := leadingShape document
  if shape.length ≤ maxDimensions && hasShape shape document then some shape else none

def leaf? : Document → Except Failure Binary64
  | .null => .ok .nan
  | .boolean b => .ok (if b then .one else .zero)
  | .integer i => if (Binary64.ofInt i).isFinite then .ok (.ofInt i) else .error .outOfRange
  | .real x => .ok x
  | .text s | .foreign s =>
    match Decimal.read? s with
    | some x => .ok x
    | none => .error .irregular
  | _ => .error .irregular

mutual

def cells? : Document → Except Failure (List Binary64)
  | .sequence items => itemCells? items
  | document => (leaf? document).map ([·])

def itemCells? : List Document → Except Failure (List Binary64)
  | [] => .ok []
  | item :: rest => do
    let first ← cells? item
    let others ← itemCells? rest
    return first ++ others

end

def ofDocument (document : Document) : Except Failure NumberArray :=
  match shape? document with
  | none => .error .irregular
  | some shape => (cells? document).map (⟨shape, ·⟩)

def toGrid (m n : Nat) (a : NumberArray) : Grid m n :=
  let cells := a.cells.toArray
  Vector.ofFn fun i => Vector.ofFn fun j => cells.getD (i * n + j) .nan

end NumberArray

inductive InputFault where
  | notRectangular (reason : String)
  | dimensions (shape : List Nat)
  | notAugmented (rows columns : Nat)
  | sizeMismatch (expected : Int) (rows columns : Nat)
  | nonFinite (rows columns : Nat)
  deriving DecidableEq

namespace InputFault

def code : InputFault → String
  | sizeMismatch .. => "E_INPUT_SIZE_MISMATCH"
  | nonFinite .. => "E_INPUT_NONFINITE"
  | _ => "E_INPUT_SHAPE_INVALID"

def message : InputFault → String
  | notRectangular reason => s!"matrix must be a rectangular grid of real numbers: {reason}"
  | dimensions shape => s!"matrix must be two-dimensional, got {shape.length} dimension(s)"
  | notAugmented rows columns =>
    s!"augmented matrix must have shape (N, N + 1) with N >= 1, got ({rows}, {columns})"
  | sizeMismatch expected rows _ =>
    s!"expected {expected} equations in {expected} unknowns, got {rows}"
  | nonFinite .. => "matrix entries must be finite"

def shape : InputFault → List Nat
  | notRectangular _ => []
  | dimensions shape => shape
  | notAugmented rows columns | sizeMismatch _ rows columns | nonFinite rows columns => [rows, columns]

end InputFault

inductive InputError where
  | rejected (fault : InputFault)
  | outOfRange
  deriving DecidableEq

structure LinearSystem where
  size : Nat
  grid : Grid size (size + 1)
  size_pos : 0 < size
  isFinite : grid.isFinite

namespace LinearSystem

def ofDocument (complaint : Document → String) (document : Document) (expected : Option Int) :
    Except InputError LinearSystem :=
  match NumberArray.ofDocument document with
  | .error .irregular => .error (.rejected (.notRectangular (complaint document)))
  | .error .outOfRange => .error .outOfRange
  | .ok a =>
    match a.shape with
    | [rows, columns] =>
      if h : rows < 1 ∨ columns ≠ rows + 1 then .error (.rejected (.notAugmented rows columns))
      else
        match expected.filter (fun size => size ≠ (rows : Int)) with
        | some size => .error (.rejected (.sizeMismatch size rows columns))
        | none =>
          let grid := a.toGrid rows (rows + 1)
          if isFinite : grid.isFinite then .ok ⟨rows, grid, by omega, isFinite⟩
          else .error (.rejected (.nonFinite rows columns))
    | shape => .error (.rejected (.dimensions shape))

end LinearSystem

end RowSweep
