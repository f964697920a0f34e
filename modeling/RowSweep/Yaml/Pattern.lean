import RowSweep.Yaml.Instant
import RowSweep.Yaml.Tag

/-!
This module contains the kinds of data that plain texts without a tag are: a few words are null or truth
values, some texts are numbers or dates, and everything else is text. A number with a point is real, one
without is whole; both may be in base sixty, with colons between the digits, and underscores do not count.
-/

namespace RowSweep.Yaml.Pattern

open Text Decimal

def nullWords : List String :=
  ["", "~", "null", "Null", "NULL"]

def truthWords : List String :=
  ["yes", "Yes", "YES", "true", "True", "TRUE", "on", "On", "ON",
   "no", "No", "NO", "false", "False", "FALSE", "off", "Off", "OFF"]

def infinityWords : List String :=
  [".inf", ".Inf", ".INF"]

def nanWords : List String :=
  [".nan", ".NaN", ".NAN"]

def isDigitMark (c : Char) : Bool :=
  isAsciiDigit c || c == '_'

def isDigits (s : List Char) : Bool :=
  s.head?.any isAsciiDigit && s.all isDigitMark

def colonParts (s : List Char) : List Char × List (List Char) :=
  s.foldr (fun c (first, others) => if c == ':' then ([], first :: others) else (c :: first, others))
    ([], [])

def isSixtieth : List Char → Bool
  | [c] => isAsciiDigit c
  | [c, d] => '0' ≤ c && c ≤ '5' && isAsciiDigit d
  | _ => false

def isUnsignedInteger : List Char → Bool
  | '0' :: 'b' :: ds => !ds.isEmpty && ds.all fun c => c == '0' || c == '1' || c == '_'
  | '0' :: 'x' :: ds => !ds.isEmpty && ds.all fun c => (hexValue? c).isSome || c == '_'
  | '0' :: ds => ds.all fun c => ('0' ≤ c && c ≤ '7') || c == '_'
  | s =>
    let (first, others) := colonParts s
    isDigits first && others.all isSixtieth

def isInteger (s : List Char) : Bool :=
  isUnsignedInteger (takeSign s).2

def isExponent : List Char → Bool
  | [] => true
  | e :: sign :: ds =>
    (e == 'e' || e == 'E') && (sign == '+' || sign == '-') && !ds.isEmpty && ds.all isAsciiDigit
  | _ => false

def isDecimalReal (s : List Char) : Bool :=
  let unsigned := (takeSign s).2
  match unsigned.dropWhile isDigitMark with
  | '.' :: rest =>
    isExponent (rest.dropWhile isDigitMark) &&
      (isDigits (unsigned.takeWhile isDigitMark) ||
        (s.head? == some '.' && isDigits (rest.takeWhile isDigitMark)))
  | _ => false

def isSixtyReal (s : List Char) : Bool :=
  let (first, others) := colonParts (takeSign s).2
  match others.reverse with
  | [] => false
  | last :: middle =>
    isDigits first && middle.all isSixtieth && isSixtieth (last.takeWhile (· != '.')) &&
      match last.dropWhile (· != '.') with
      | _ :: fraction => fraction.all isDigitMark
      | [] => false

def isReal (s : List Char) : Bool :=
  infinityWords.contains (String.ofList (takeSign s).2) || nanWords.contains (String.ofList s) ||
    isDecimalReal s || isSixtyReal s

def isInstant (s : List Char) : Bool :=
  (Instant.ofText? s).any fun i => i.full || i.time.isSome

def kind (s : List Char) : Tag :=
  let text := String.ofList s
  if nullWords.contains text then .null
  else if truthWords.contains text then .truth
  else if isReal s then .real
  else if isInteger s then .integer
  else if isInstant s then .instant
  else if text = "<<" then .merge
  else if text = "=" then .mainValue
  else if ["!", "&", "*"].contains text then .unknown
  else .text

end Pattern

def Tag.ofPlain (text : String) : Tag :=
  match text.toList.reverse with
  | '\n' :: c :: s => Pattern.kind (c :: s).reverse
  | s => Pattern.kind s.reverse

end RowSweep.Yaml
