import RowSweep.Diagnostic.Basic
import RowSweep.Decimal.Reader

/-!
This module contains the making of diagnostics from named fields: every field is checked in the order in
which the fields are declared, then those that are not known, and last the rules that join fields.
-/

namespace RowSweep

attribute [local instance (high)] instPowNat

inductive Violation where
  | missing
  | notText
  | tooShort
  | notAMember
  | unknownField
  | notAnObject
  | negative
  | notAnInteger
  | unreadableInteger
  | fractional
  | nonFinite
  | integerTooLarge
  | rule (message : String)
  deriving DecidableEq

namespace Violation

def name : Violation → String
  | missing => "missing"
  | notText => "string_type"
  | tooShort => "string_too_short"
  | notAMember => "enum"
  | unknownField => "extra_forbidden"
  | notAnObject => "model_type"
  | negative => "greater_than_equal"
  | notAnInteger => "int_type"
  | unreadableInteger => "int_parsing"
  | fractional => "int_from_float"
  | nonFinite => "finite_number"
  | integerTooLarge => "int_parsing_size"
  | rule _ => "value_error"

def message? : Violation → Option String
  | rule message => some ("Value error, " ++ message)
  | _ => none

end Violation

structure FieldError where
  path : List String
  violation : Violation
  deriving DecidableEq

abbrev Fields := List (String × Evidence)

def Evidence.fields? : Evidence → Option Fields
  | mapping entries => some (entries.filterMap fun (key, value) =>
      match key with
      | .text name => some (name, value)
      | .integer _ | .other => none)
  | _ => none

namespace Fields

def errorAt (key : String) (violation : Violation) : List FieldError :=
  [⟨[key], violation⟩]

def unknown (known : List String) (fields : Fields) : List FieldError :=
  fields.filterMap fun (key, _) =>
    if known.contains key then none else some ⟨[key], .unknownField⟩

def filledText (key : String) : Evidence → Except (List FieldError) { s : String // s ≠ "" }
  | .text s => if h : s = "" then .error (errorAt key .tooShort) else .ok ⟨s, h⟩
  | _ => .error (errorAt key .notText)

def textOrNull (key : String) : Evidence → Except (List FieldError) (Option String)
  | .null => .ok none
  | .text s => .ok (some s)
  | _ => .error (errorAt key .notText)

def storedWitness (key : String) (e : Evidence) : Except (List FieldError) (Option Document) :=
  e.witness.mapError fun fault => errorAt key (.rule fault.message)

def requiredText (fields : Fields) (key : String) :
    Except (List FieldError) { s : String // s ≠ "" } :=
  match List.lookup key fields with
  | none => .error (errorAt key .missing)
  | some e => filledText key e

def optionalText (fields : Fields) (key : String) : Except (List FieldError) (Option String) :=
  textOrNull key ((List.lookup key fields).getD .null)

def member (fields : Fields) (key : String) (ofName? : String → Option α) :
    Except (List FieldError) α :=
  match List.lookup key fields with
  | none => .error (errorAt key .missing)
  | some (.text s) =>
    match ofName? s with
    | some value => .ok value
    | none => .error (errorAt key .notAMember)
  | some _ => .error (errorAt key .notAMember)

/-! ### Integers in texts -/

/--
Passes the zeros in front of a number, between which there may be underscores, if it starts with one. The
character before a point stays, and so does the last one if no number follows.
-/
def dropZeros? : List Char → Option (List Char)
  | [] => none
  | c :: s => if c == '0' then pass c s else if startsNumber c then some (c :: s) else none
where
  startsNumber (c : Char) : Bool :=
    ('1' ≤ c && c ≤ '9') || c == '-'
  pass (last : Char) : List Char → Option (List Char)
    | [] => some [last]
    | c :: s =>
      if c == '0' || c == '_' then pass c s
      else if startsNumber c then some (c :: s)
      else if c == '.' then some (last :: c :: s)
      else none

def dropZeroFraction (s : List Char) : List Char :=
  match s.dropWhile (· != '.') with
  | _ :: zeros =>
    if !zeros.isEmpty && zeros.all (· == '0') then s.takeWhile (· != '.') else s
  | [] => s

def dropUnderscores? (s : List Char) : Option (List Char) :=
  go true s
where
  go (afterUnderscore : Bool) : List Char → Option (List Char)
    | [] => if afterUnderscore then none else some []
    | c :: s =>
      if c == '_' then if afterUnderscore then none else go true s
      else (go false s).map (c :: ·)

def integerText? (text : String) : Option (List Char) := do
  let s ← match Text.strip Text.isBlank text.toList with
    | '+' :: '-' :: _ => none
    | '+' :: s => some s
    | s => some s
  let s ← dropZeros? s
  dropUnderscores? (dropZeroFraction s)

def readInteger (text : String) : Except Violation Int :=
  match integerText? text with
  | none => .error .unreadableInteger
  | some s =>
    if (String.ofList s).utf8ByteSize > Decimal.maxDigits then .error .integerTooLarge
    else
      let (negative, ds) := Decimal.takeSign s
      if ds.isEmpty || !ds.all Text.isAsciiDigit then .error .unreadableInteger
      else .ok (if negative then -(Decimal.ofDigits ds : Int) else Decimal.ofDigits ds)

def integer : Evidence → Except Violation Int
  | .boolean b => .ok (if b then 1 else 0)
  | .integer i => .ok i
  | .real x =>
    if !x.isFinite then .error .nonFinite
    else
      match x.integer? with
      | none => .error .fractional
      | some i => if i.natAbs < 2 ^ (63 : Nat) then .ok i else .error .integerTooLarge
  | .text s => readInteger s
  | _ => .error .notAnInteger

def index (fields : Fields) (key : String) : Except (List FieldError) (Option Nat) :=
  match List.lookup key fields with
  | none | some .null => .ok none
  | some value =>
    match integer value with
    | .error violation => .error (errorAt key violation)
    | .ok i => if i < 0 then .error (errorAt key .negative) else .ok (some i.toNat)

def errors : Except (List FieldError) α → List FieldError
  | .ok _ => []
  | .error found => found

end Fields

namespace Position

open Fields

def ofFields (fields : Fields) : Except (List FieldError) Position :=
  let unknown := fields.unknown ["row", "column"]
  match fields.index "row", fields.index "column" with
  | .ok row, .ok column =>
    if unknown.isEmpty then
      if h : row.isSome ∨ column.isSome then .ok ⟨row, column, h⟩
      else .error [⟨[], .rule "matrix position needs a row or a column index"⟩]
    else .error unknown
  | row, column => .error (errors row ++ errors column ++ unknown)

def ofEvidence (e : Evidence) : Except (List FieldError) Position :=
  match e.fields? with
  | some fields => ofFields fields
  | none => .error [⟨[], .notAnObject⟩]

end Position

namespace Fields

def position (fields : Fields) (key : String) : Except (List FieldError) (Option Position) :=
  match List.lookup key fields with
  | none | some .null => .ok none
  | some value =>
    match Position.ofEvidence value with
    | .ok p => .ok (some p)
    | .error found => .error (found.map fun e => { e with path := key :: e.path })

def witness (fields : Fields) (key : String) : Except (List FieldError) (Option Document) :=
  storedWitness key ((List.lookup key fields).getD .null)

end Fields

namespace Diagnostic

open Fields

def fieldNames : List String :=
  ["code", "severity", "message", "suggested_action", "solver_stage", "source", "position", "witness"]

def ofFields (fields : Fields) : Except (List FieldError) Diagnostic :=
  let unknown := fields.unknown fieldNames
  match fields.requiredText "code", fields.member "severity" Severity.ofName?,
    fields.requiredText "message", fields.requiredText "suggested_action",
    fields.member "solver_stage" Stage.ofName?, fields.optionalText "source",
    fields.position "position", fields.witness "witness" with
  | .ok ⟨code, hc⟩, .ok severity, .ok ⟨message, hm⟩, .ok ⟨action, ha⟩, .ok stage, .ok source,
    .ok position, .ok witness =>
    if unknown.isEmpty then
      if h : source.isSome ∨ position.isSome then
        .ok ⟨code, severity, message, action, stage, source, position, witness, hc, hm, ha, h⟩
      else .error [⟨[], .rule "a diagnostic needs a source or a matrix position"⟩]
    else .error unknown
  | code, severity, message, action, stage, source, position, witness =>
    .error (errors code ++ errors severity ++ errors message ++ errors action ++ errors stage ++
      errors source ++ errors position ++ errors witness ++ unknown)

def ofEvidence (e : Evidence) : Except (List FieldError) Diagnostic :=
  match e.fields? with
  | some fields => ofFields fields
  | none => .error [⟨[], .notAnObject⟩]

end Diagnostic

end RowSweep
