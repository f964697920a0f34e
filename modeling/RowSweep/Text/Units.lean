import RowSweep.Text.Character

/-!
This module contains the characters that numbers given in escapes stand for. Characters beyond the first
65536 can be given in two halves.
-/

namespace RowSweep.Text

def isHighHalf (n : Nat) : Bool :=
  0xD800 ≤ n && n < 0xDC00

def isLowHalf (n : Nat) : Bool :=
  0xDC00 ≤ n && n < 0xE000

def joinHalves (high low : Nat) : Char :=
  Char.ofNat (0x10000 + (high - 0xD800) * 0x400 + (low - 0xDC00))

def ofUnit (n : Nat) : Char :=
  if isHighHalf n || isLowHalf n then '\ufffd' else Char.ofNat n

/--
The characters of numbers, of which a high half and a low one behind it are a single character. Only the
halves of a digit stay apart, since no number is written with them.
-/
def ofUnits : List Nat → List Char
  | high :: low :: rest =>
    if isHighHalf high && isLowHalf low && (digitValue? (joinHalves high low)).isNone then
      joinHalves high low :: ofUnits rest
    else ofUnit high :: ofUnits (low :: rest)
  | [n] => [ofUnit n]
  | [] => []

end RowSweep.Text
