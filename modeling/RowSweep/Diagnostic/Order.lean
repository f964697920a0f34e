import RowSweep.Diagnostic.Basic

/-!
This module contains the order of diagnostics: errors first, then by stage, place, code, source, message
and witness.
-/

namespace RowSweep

structure PlaceKey where
  unplaced : Int
  rowless : Int
  row : Int
  column : Int
  deriving DecidableEq

structure DiagnosticKey where
  severity : Nat
  stage : Nat
  place : PlaceKey
  code : String
  source : String
  message : String
  witness : String
  deriving DecidableEq

namespace PlaceKey

def ofPosition (position : Option Position) : PlaceKey :=
  match position with
  | none => ⟨1, 0, 0, 0⟩
  | some p =>
    let column : Int := match p.column with
      | some c => c
      | none => -1
    match p.row with
    | none => ⟨0, 1, 0, column⟩
    | some r => ⟨0, 0, r, column⟩

def compare (a b : PlaceKey) : Ordering :=
  (Ord.compare a.unplaced b.unplaced).then <|
  (Ord.compare a.rowless b.rowless).then <|
  (Ord.compare a.row b.row).then <|
  Ord.compare a.column b.column

end PlaceKey

namespace DiagnosticKey

def compare (a b : DiagnosticKey) : Ordering :=
  (Ord.compare a.severity b.severity).then <|
  (Ord.compare a.stage b.stage).then <|
  (a.place.compare b.place).then <|
  (Ord.compare a.code b.code).then <|
  (Ord.compare a.source b.source).then <|
  (Ord.compare a.message b.message).then <|
  Ord.compare a.witness b.witness

end DiagnosticKey

namespace Diagnostic

def key (d : Diagnostic) : DiagnosticKey where
  severity := d.severity.rank
  stage := d.stage.rank
  place := .ofPosition d.position
  code := d.code
  source := d.source.getD ""
  message := d.message
  witness := witnessText d.witness

def le (a b : Diagnostic) : Bool :=
  (a.key.compare b.key).isLE

def sort (ds : List Diagnostic) : List Diagnostic :=
  ds.mergeSort le

def order (ds : List Diagnostic) : List Nat :=
  (ds.zipIdx.mergeSort fun a b => a.1.le b.1).map (·.2)

end Diagnostic

end RowSweep
