import RowSweep.Document
import RowSweep.Decimal.Layout

/-!
This module contains the writing of documents as JSON text: no blanks, and nothing but printable ASCII.
Not-a-number and the infinities are written as `NaN`, `Infinity` and `-Infinity`.
-/

namespace RowSweep.Json

def hexDigit (n : Nat) : Char :=
  Nat.digitChar (n % 16)

def unitEscape (n : Nat) : List Char :=
  ['\\', 'u', hexDigit (n / 4096), hexDigit (n / 256), hexDigit (n / 16), hexDigit n]

def escape (c : Char) : List Char :=
  match c with
  | '"' => ['\\', '"']
  | '\\' => ['\\', '\\']
  | '\n' => ['\\', 'n']
  | '\r' => ['\\', 'r']
  | '\t' => ['\\', 't']
  | '\x08' => ['\\', 'b']
  | '\x0c' => ['\\', 'f']
  | c =>
    let n := c.toNat
    if ' ' ≤ c ∧ c ≤ '~' then [c]
    else if n < 0x10000 then unitEscape n
    else unitEscape (0xD800 + (n - 0x10000) / 0x400) ++ unitEscape (0xDC00 + (n - 0x10000) % 0x400)

def quote (text : String) : List Char :=
  '"' :: text.toList.flatMap escape ++ ['"']

def integerText (i : Int) : List Char :=
  if i < 0 then '-' :: Nat.toDigits 10 i.natAbs else Nat.toDigits 10 i.natAbs

def realText : Binary64 → List Char
  | .nan => "NaN".toList
  | .infinite negative => if negative then "-Infinity".toList else "Infinity".toList
  | x => (Decimal.Layout.exact.write x).toList

mutual

def chars : Document → List Char
  | .null => "null".toList
  | .boolean b => if b then "true".toList else "false".toList
  | .integer i => integerText i
  | .real x => realText x
  | .text s => quote s
  | .sequence items => '[' :: itemChars items
  | .mapping entries => '\x7b' :: entryChars entries
  | .foreign _ => "null".toList

def itemChars : List Document → List Char
  | [] => [']']
  | [item] => chars item ++ [']']
  | item :: rest => chars item ++ ',' :: itemChars rest

def entryChars : List (String × Document) → List Char
  | [] => ['\x7d']
  | [(key, item)] => quote key ++ ':' :: chars item ++ ['\x7d']
  | (key, item) :: rest => quote key ++ ':' :: chars item ++ ',' :: entryChars rest

end

def write (document : Document) : String :=
  String.ofList (chars document)

end RowSweep.Json
