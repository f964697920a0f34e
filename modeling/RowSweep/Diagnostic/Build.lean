import RowSweep.Diagnostic.Catalog
import RowSweep.Diagnostic.Validation

/-!
This module contains the making of diagnostics from a code: the catalog gives what is not said.
-/

namespace RowSweep

namespace Evidence

def isFilled : Evidence → Bool
  | null => false
  | boolean b => b
  | integer i => i ≠ 0
  | real x => !x.isZero
  | text s => s ≠ ""
  | element e => e.isFilled
  | list items | tuple items | array items => !items.isEmpty
  | mapping entries => !entries.isEmpty
  | foreign => true

def label? : Evidence → Option String
  | boolean b => some (if b then "True" else "False")
  | integer i => some (toString i)
  | real x => some (Decimal.Layout.exact.write x)
  | text s => some s
  | _ => none

end Evidence

structure Finding where
  code : Evidence
  message : Evidence
  source : Evidence := .null
  row : Evidence := .null
  column : Evidence := .null
  witness : Evidence := .null
  severity : Option Severity := none
  stage : Option Stage := none
  action : Evidence := .null

inductive BuildError where
  | emptyCode
  | emptyMessage
  | emptySource
  | collectionAsCode
  | unknownCode (code field : String)
  | emptyAction
  | invalid (errors : List FieldError)
  deriving DecidableEq

namespace BuildError

def message? : BuildError → Option String
  | emptyCode => some "diagnostic code must be non-empty"
  | emptyMessage => some "diagnostic message must be non-empty"
  | emptySource => some "diagnostic source must be non-empty when provided"
  | unknownCode code field =>
    some s!"diagnostic code '{code}' is not in canonical catalog; explicit {field} is required"
  | emptyAction => some "diagnostic suggested_action must be non-empty"
  | collectionAsCode | invalid _ => none

end BuildError

namespace Diagnostic

open Fields

def resolve (code field : String) (given known : Option α) : Except BuildError α :=
  match given.or known with
  | some value => .ok value
  | none => .error (.unknownCode code field)

def resolveAction (code : String) (given : Evidence) (known : Option String) :
    Except BuildError Evidence :=
  match given with
  | .null => resolve code "suggested_action" none (known.map .text)
  | given => .ok given

def place (row column : Evidence) : Except BuildError (Option Position) :=
  match row, column with
  | .null, .null => .ok none
  | row, column =>
    match Position.ofFields [("row", row), ("column", column)] with
    | .ok p => .ok (some p)
    | .error found => .error (.invalid found)

def assemble (severity : Severity) (stage : Stage) (position : Option Position)
    (code message action source witness : Evidence) : Except (List FieldError) Diagnostic :=
  match filledText "code" code, filledText "message" message, filledText "suggested_action" action,
    textOrNull "source" source, storedWitness "witness" witness with
  | .ok ⟨code, hc⟩, .ok ⟨message, hm⟩, .ok ⟨action, ha⟩, .ok source, .ok witness =>
    if h : source.isSome ∨ position.isSome then
      .ok ⟨code, severity, message, action, stage, source, position, witness, hc, hm, ha, h⟩
    else .error [⟨[], .rule "a diagnostic needs a source or a matrix position"⟩]
  | code, message, action, source, witness =>
    .error (errors code ++ errors message ++ errors action ++ errors source ++ errors witness)

def build (f : Finding) : Except BuildError Diagnostic :=
  if !f.code.isFilled then .error .emptyCode
  else if !f.message.isFilled then .error .emptyMessage
  else if !(f.source matches .null) && !f.source.isFilled then .error .emptySource
  else
    match f.code.label? with
    | none => .error .collectionAsCode
    | some code => do
      let entry := Catalog.canonical.find? code
      let severity ← resolve code "severity" f.severity (entry.map (·.severity))
      let stage ← resolve code "solver_stage" f.stage (entry.map (·.stage))
      let action ← resolveAction code f.action (entry.map (·.action))
      if !action.isFilled then .error .emptyAction
      else do
        let position ← place f.row f.column
        (assemble severity stage position f.code f.message action f.source f.witness).mapError .invalid

end Diagnostic

end RowSweep
