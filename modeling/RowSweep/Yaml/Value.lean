import RowSweep.Document
import RowSweep.Text.Base64
import RowSweep.Text.Integer
import RowSweep.Yaml.Pattern

/-!
This module contains what tagged texts stand for. The text of a number need not have a form in which it
would be taken for one without the tag.
-/

namespace RowSweep.Yaml.Value

open Text Decimal Pattern

def literal (value : Option α) : Except ReadFault α :=
  match value with
  | some value => .ok value
  | none => .error (.breakdown .invalidLiteral)

def withoutUnderscores (s : List Char) : List Char :=
  s.filter (· != '_')

def parts (s : List Char) : List (List Char) :=
  let (first, others) := colonParts s
  first :: others

def truth (s : List Char) : Except ReadFault Bool :=
  let word := String.ofList (s.map Char.toLower)
  if word = "yes" ∨ word = "true" ∨ word = "on" then .ok true
  else if word = "no" ∨ word = "false" ∨ word = "off" then .ok false
  else .error (.breakdown .unknownWord)

def unsignedInteger : List Char → Except ReadFault Int
  | [] => .error (.breakdown .emptyNumeral)
  | ['0'] => .ok 0
  | '0' :: 'b' :: s => literal (readInteger? 2 s)
  | '0' :: 'x' :: s => literal (readInteger? 16 s)
  | '0' :: s => literal (readInteger? 8 ('0' :: s))
  | s => do
    let found ← literal ((parts s).mapM (readInteger? 10))
    return found.foldl (fun n part => 60 * n + part) 0

def integer (s : List Char) : Except ReadFault Int :=
  match withoutUnderscores s with
  | [] => .error (.breakdown .emptyNumeral)
  | s =>
    let (negative, s) := takeSign s
    (unsignedInteger s).map fun n => if negative then -n else n

def weigh (base : Nat) (sum : Binary64) : List Binary64 → Except ReadFault Binary64
  | [] => .ok sum
  | part :: rest =>
    let weight := Binary64.ofNat base
    if weight.isFinite then weigh (60 * base) (sum + part * weight) rest
    else .error (.breakdown .outOfRange)

def unsignedReal (s : List Char) : Except ReadFault Binary64 := do
  if s = ".inf".toList then return .infinite false
  if s = ".nan".toList then return .nan
  let found ← literal ((parts s).mapM fun part => Decimal.read? (String.ofList part))
  match found with
  | [x] => return x
  | _ => weigh 1 .zero found.reverse

def real (s : List Char) : Except ReadFault Binary64 :=
  match (withoutUnderscores s).map Char.toLower with
  | [] => .error (.breakdown .emptyNumeral)
  | s =>
    let (negative, s) := takeSign s
    (unsignedReal s).map fun x => if negative then -x else x

def bytes (s : List Char) : Except ReadFault Document :=
  match if s.all isAscii then Base64.decode? s else none with
  | none => .error .malformed
  | some found =>
    if found.all (· < 128) then
      .ok (.foreign (String.ofList (found.map fun b => Char.ofNat b.toNat)))
    else .ok (.foreign "")

def instant (s : List Char) : Except ReadFault Document :=
  match Instant.ofText? s with
  | none => .error (.breakdown .noDate)
  | some i => if i.exists? then .ok (.foreign "") else .error (.breakdown .invalidLiteral)

def withoutLineBreak (s : List Char) : List Char :=
  match s.reverse with
  | '\n' :: s => s.reverse
  | _ => s

def ofText (tag : Tag) (text : String) : Except ReadFault Document :=
  let s := text.toList
  match tag with
  | .null => .ok .null
  | .truth => (truth s).map .boolean
  | .integer => (integer s).map .integer
  | .real => (real s).map .real
  | .bytes => bytes s
  | .instant => instant (withoutLineBreak s)
  | .text => .ok (.text text)
  | .sequence | .mapping | .set | .entries | .merge | .mainValue | .unknown => .error .malformed

end RowSweep.Yaml.Value
