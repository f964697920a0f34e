import RowSweep.Decimal.Reader

/-!
This module contains the reading of a whole number from text in a given base. Blanks around it do not
count, and the digits of any script are accepted.
-/

namespace RowSweep.Text

def baseMark? : Nat → Option Char
  | 2 => some 'b'
  | 8 => some 'o'
  | 16 => some 'x'
  | _ => none

def dropBaseMark (base : Nat) : List Char → List Char
  | '0' :: c :: s => if baseMark? base = some c.toLower then s else '0' :: c :: s
  | s => s

def digitOf? (base : Nat) (c : Char) : Option Nat :=
  (hexValue? c).filter (· < base)

def readInteger? (base : Nat) (s : List Char) : Option Int := do
  let s ← Decimal.toAscii? s
  let (negative, s) := Decimal.takeSign (strip isAsciiBlank s)
  let ds ← (dropBaseMark base s).mapM (digitOf? base)
  if ds.isEmpty || (base == 10 && ds.length > Decimal.maxDigits) then none
  else
    let n := ds.foldl (fun n d => base * n + d) 0
    return if negative then -(n : Int) else n

end RowSweep.Text
