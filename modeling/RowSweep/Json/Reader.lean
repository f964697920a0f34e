import RowSweep.Document
import RowSweep.Decimal.Reader
import RowSweep.Text.Units

/-!
This module contains the reading of JSON text. Besides the standard grammar it takes `NaN`, `Infinity`
and `-Infinity`; of equal keys the last one counts.
-/

namespace RowSweep.Json

open Text Decimal

abbrev Reader (α : Type) := List Char → Except ReadFault (α × List Char)

def isSpace (c : Char) : Bool :=
  c == ' ' || c == '\t' || c == '\n' || c == '\r'

def skipSpace (s : List Char) : List Char :=
  s.dropWhile isSpace

def hexUnit? : List Char → Option (Nat × List Char)
  | a :: b :: c :: d :: s => do
    let a ← hexValue? a
    let b ← hexValue? b
    let c ← hexValue? c
    let d ← hexValue? d
    return (((a * 16 + b) * 16 + c) * 16 + d, s)
  | _ => none

def unicodeEscape? (s : List Char) : Option (Char × List Char) := do
  let (unit, rest) ← hexUnit? s
  match rest with
  | '\\' :: 'u' :: tail =>
    match hexUnit? tail with
    | some (low, tail) =>
      if isHighHalf unit && isLowHalf low then return (joinHalves unit low, tail)
      else return (ofUnit unit, rest)
    | none => return (ofUnit unit, rest)
  | _ => return (ofUnit unit, rest)

def simpleEscape? : Char → Option Char
  | '"' => some '"'
  | '\\' => some '\\'
  | '/' => some '/'
  | 'b' => some '\x08'
  | 'f' => some '\x0c'
  | 'n' => some '\n'
  | 'r' => some '\r'
  | 't' => some '\t'
  | _ => none

def stringBody : Nat → List Char → Reader (List Char)
  | 0, _, _ => .error .malformed
  | fuel + 1, done, s =>
    match s with
    | '"' :: rest => .ok (done.reverse, rest)
    | '\\' :: 'u' :: rest =>
      match unicodeEscape? rest with
      | some (c, rest) => stringBody fuel (c :: done) rest
      | none => .error .malformed
    | '\\' :: c :: rest =>
      match simpleEscape? c with
      | some c => stringBody fuel (c :: done) rest
      | none => .error .malformed
    | c :: rest =>
      if c == '\\' || c < ' ' then .error .malformed else stringBody fuel (c :: done) rest
    | [] => .error .malformed

def string (fuel : Nat) (s : List Char) : Except ReadFault (String × List Char) := do
  let (body, rest) ← stringBody fuel [] s
  return (String.ofList body, rest)

def spanFraction : List Char → List Char × List Char
  | '.' :: s =>
    let (ds, rest) := spanDigits s
    if ds.isEmpty then ([], '.' :: s) else ('.' :: ds, rest)
  | s => ([], s)

def spanExponent : List Char → List Char × List Char
  | c :: s =>
    if c == 'e' || c == 'E' then
      let (sign, tail) := match s with
        | '+' :: tail => (['+'], tail)
        | '-' :: tail => (['-'], tail)
        | tail => ([], tail)
      let (ds, rest) := spanDigits tail
      if ds.isEmpty then ([], c :: s) else (c :: sign ++ ds, rest)
    else ([], c :: s)
  | [] => ([], [])

def number (s : List Char) : Except ReadFault (Document × List Char) :=
  let (negative, s) := match s with
    | '-' :: s => (true, s)
    | s => (false, s)
  let (whole, rest) := match s with
    | '0' :: rest => (['0'], rest)
    | s => spanDigits s
  if whole.isEmpty then .error .malformed
  else
    let (fraction, rest) := spanFraction rest
    let (exponent, rest) := spanExponent rest
    if fraction.isEmpty && exponent.isEmpty then
      if whole.length > maxDigits then .error (.breakdown .invalidLiteral)
      else .ok (.integer (if negative then -(ofDigits whole : Int) else ofDigits whole), rest)
    else
      match unsigned? (whole ++ fraction ++ exponent) with
      | some d => .ok (.real (d.toBinary64 negative), rest)
      | none => .error .malformed

def words : List (List Char × Document) :=
  [("null".toList, .null), ("true".toList, .boolean true), ("false".toList, .boolean false),
   ("NaN".toList, .real .nan), ("Infinity".toList, .real (.infinite false)),
   ("-Infinity".toList, .real (.infinite true))]

def word? (s : List Char) : Option (Document × List Char) :=
  words.findSome? fun (word, value) =>
    if word.isPrefixOf s then some (value, s.drop word.length) else none

def maxDepth : Nat :=
  965

mutual

/--
Reads one value, white space before it included, within `depth` open collections. The fuel bounds the
characters that are left.
-/
def value (depth : Nat) : Nat → List Char → Except ReadFault (Document × List Char)
  | 0, _ => .error .malformed
  | fuel + 1, s =>
    match skipSpace s with
    | '"' :: rest => do
      let (text, rest) ← string (fuel + 1) rest
      return (.text text, rest)
    | '[' :: rest =>
      if depth ≥ maxDepth then .error (.breakdown .tooDeep)
      else
        match skipSpace rest with
        | ']' :: rest => .ok (.sequence [], rest)
        | rest => items (depth + 1) fuel [] rest
    | '{' :: rest =>
      if depth ≥ maxDepth then .error (.breakdown .tooDeep)
      else
        match skipSpace rest with
        | '}' :: rest => .ok (.mapping [], rest)
        | rest => entries (depth + 1) fuel [] rest
    | s =>
      match word? s with
      | some found => .ok found
      | none => number s

def items (depth : Nat) : Nat → List Document → List Char → Except ReadFault (Document × List Char)
  | 0, _, _ => .error .malformed
  | fuel + 1, done, s => do
    let (item, rest) ← value depth fuel s
    match skipSpace rest with
    | ',' :: rest => items depth fuel (item :: done) rest
    | ']' :: rest => return (.sequence (item :: done).reverse, rest)
    | _ => throw .malformed

def entries (depth : Nat) :
    Nat → List (String × Document) → List Char → Except ReadFault (Document × List Char)
  | 0, _, _ => .error .malformed
  | fuel + 1, done, s =>
    match skipSpace s with
    | '"' :: rest => do
      let (key, rest) ← string (fuel + 1) rest
      match skipSpace rest with
      | ':' :: rest =>
        let (item, rest) ← value depth fuel rest
        let done := Document.insertEntry key item done
        match skipSpace rest with
        | ',' :: rest => entries depth fuel done rest
        | '}' :: rest => return (.mapping done, rest)
        | _ => throw .malformed
      | _ => throw .malformed
    | _ => .error .malformed

end

def read (text : String) : Except ReadFault Document := do
  let s := text.toList
  let (document, rest) ← value 0 (s.length + 1) s
  if (skipSpace rest).isEmpty then return document else throw .malformed

end RowSweep.Json
