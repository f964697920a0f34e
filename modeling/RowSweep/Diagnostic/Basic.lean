import RowSweep.Diagnostic.Witness

/-!
This module contains diagnostics: findings about a system or its solution, with where they were made, what
they rest on and what to do about them.
-/

namespace RowSweep

inductive Severity where
  | error
  | warning
  deriving DecidableEq

namespace Severity

def name : Severity → String
  | error => "error"
  | warning => "warning"

def ofName? : String → Option Severity
  | "error" => some error
  | "warning" => some warning
  | _ => none

def rank : Severity → Nat
  | error => 0
  | warning => 1

end Severity

inductive Stage where
  | parse
  | normalize
  | eliminate
  | classify
  | substitute
  | residual
  deriving DecidableEq

namespace Stage

def name : Stage → String
  | parse => "parse"
  | normalize => "normalize"
  | eliminate => "eliminate"
  | classify => "classify"
  | substitute => "substitute"
  | residual => "residual"

def all : List Stage :=
  [parse, normalize, eliminate, classify, substitute, residual]

def ofName? (name : String) : Option Stage :=
  all.find? (·.name == name)

def rank : Stage → Nat
  | parse => 0
  | normalize => 1
  | eliminate => 2
  | classify => 3
  | substitute => 4
  | residual => 5

end Stage

structure Position where
  row : Option Nat
  column : Option Nat
  placed : row.isSome ∨ column.isSome
  deriving DecidableEq

structure Diagnostic where
  code : String
  severity : Severity
  message : String
  action : String
  stage : Stage
  source : Option String
  position : Option Position
  witness : Option Document
  code_ne : code ≠ ""
  message_ne : message ≠ ""
  action_ne : action ≠ ""
  located : source.isSome ∨ position.isSome

end RowSweep
