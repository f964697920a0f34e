import RowSweep.Decimal.Basic
import RowSweep.Text.Character

/-!
This module contains the reading of a real number from text: an optional sign, digits with an optional
fraction and exponent, or a word for infinity or for no number. Blanks around it do not count, single
underscores may stand between digits, and the digits of any script are accepted.
-/

namespace RowSweep.Decimal

open Text

def maxDigits : Nat :=
  4300

def ofDigits (ds : List Char) : Nat :=
  ds.foldl (fun n c => 10 * n + (c.toNat - '0'.toNat)) 0

def spanDigits (s : List Char) : List Char × List Char :=
  (s.takeWhile isAsciiDigit, s.dropWhile isAsciiDigit)

def takeSign : List Char → Bool × List Char
  | '-' :: s => (true, s)
  | '+' :: s => (false, s)
  | s => (false, s)

def dropUnderscores (s : List Char) : Option (List Char) :=
  go false s
where
  go (afterDigit : Bool) : List Char → Option (List Char)
    | [] => some []
    | '_' :: c :: s =>
      if afterDigit && isAsciiDigit c then (go true s).map (c :: ·) else none
    | ['_'] => none
    | c :: s => (go (isAsciiDigit c) s).map (c :: ·)

def exponent? : List Char → Option Int
  | [] => some 0
  | c :: s =>
    if c == 'e' || c == 'E' then
      let (negative, ds) := takeSign s
      if ds.isEmpty || !ds.all isAsciiDigit then none
      else some (if negative then -(ofDigits ds : Int) else ofDigits ds)
    else none

def unsigned? (s : List Char) : Option Decimal :=
  let (whole, rest) := spanDigits s
  let (fraction, rest) := match rest with
    | '.' :: rest => spanDigits rest
    | rest => ([], rest)
  if whole.isEmpty && fraction.isEmpty then none
  else (exponent? rest).map fun e => ⟨ofDigits (whole ++ fraction), e - fraction.length⟩

def signed? (s : List Char) : Option Binary64 :=
  let (negative, s) := takeSign s
  let word := String.ofList (s.map Char.toLower)
  if word = "inf" ∨ word = "infinity" then some (.infinite negative)
  else if word = "nan" then some .nan
  else (unsigned? s).map (·.toBinary64 negative)

def toAscii? (s : List Char) : Option (List Char) :=
  s.mapM fun c =>
    if isAscii c then some c
    else if isBlank c then some ' '
    else (digitValue? c).map fun n => Char.ofNat ('0'.toNat + n)

def read? (text : String) : Option Binary64 := do
  let s ← toAscii? text.toList
  signed? (← dropUnderscores (strip isAsciiBlank s))

end RowSweep.Decimal
