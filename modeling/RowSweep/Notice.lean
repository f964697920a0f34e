import RowSweep.Event
import RowSweep.BackSubstitution
import RowSweep.Decimal.Layout

/-!
This module contains the log of a solve: what is said, how urgent it is, and which part says it.
-/

namespace RowSweep

inductive SolutionKind where
  | unique
  | singular
  | inconsistent
  deriving DecidableEq

namespace SolutionKind

def name : SolutionKind → String
  | unique => "unique"
  | singular => "singular"
  | inconsistent => "inconsistent"

def all : List SolutionKind :=
  [unique, singular, inconsistent]

end SolutionKind

inductive Notice where
  | rowMoved (movedRow finalRow : Nat)
  | sweep (note : SweepNote)
  | classified (rows unknowns : Nat) (pivotProduct : Binary64) (consistent : Bool)
  | inconsistent
  | missingPivot
  | duplicateRow (row earlier : Nat)
  | nonFiniteSolution (kind : SolutionKind)
  | finished (kind : SolutionKind)

namespace Notice

def level : Notice → Nat
  | sweep (.contradiction _) | inconsistent | missingPivot => 20
  | nonFiniteSolution _ => 30
  | _ => 10

def levelName (n : Notice) : String :=
  match n.level with
  | 10 => "DEBUG"
  | 20 => "INFO"
  | _ => "WARNING"

def source : Notice → String
  | rowMoved .. => "slaegauss.solver.normalize"
  | sweep _ => "slaegauss.solver.eliminate"
  | duplicateRow .. => "slaegauss.solver.singular"
  | finished _ => "slaegauss.cli.main"
  | _ => "slaegauss.solver.solve"

def text : Notice → String
  | rowMoved row final => s!"row {row} moved up to {final}"
  | sweep (.passDone column openRows) =>
    s!"pass {column} done, next pivot row {(openRows : Int) - 1}"
  | sweep (.contradiction column) =>
    s!"contradictory row found in pass {column}, elimination aborted"
  | classified rows unknowns product consistent =>
    let product := Decimal.Layout.exact.write product
    let consistent := if consistent then "True" else "False"
    s!"classified {rows}x{unknowns} system: pivot_product={product} consistent={consistent}"
  | inconsistent => "system is inconsistent, no solution produced"
  | missingPivot => "column without pivot, resolving a particular solution"
  | duplicateRow row earlier => s!"row {row} duplicates row {earlier}, skipped for basis"
  | nonFiniteSolution kind => s!"elimination produced a non-finite solution for a {kind.name} system"
  | finished kind => s!"solve finished with kind={kind.name}"

def line (n : Notice) : String :=
  n.levelName ++ " " ++ n.source ++ ": " ++ n.text

end Notice

end RowSweep
