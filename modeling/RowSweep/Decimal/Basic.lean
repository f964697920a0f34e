import RowSweep.Binary64.Basic

/-!
This module contains decimal numbers `digits * 10 ^ exponent` and the two directions between them and
binary64: the value nearest to a decimal, and the decimals that stand for a value, either rounded to
a number of digits or as short as the value can still be read back from.
-/

namespace RowSweep

attribute [local instance (high)] instPowNat

structure Decimal where
  digits : Nat
  exponent : Int
  deriving DecidableEq, Inhabited

namespace Decimal

def digitCount (n : Nat) : Nat :=
  (Nat.toDigits 10 n).length

/--
The binary64 value nearest to a decimal. Decimals of `10 ^ 400` and more are infinite and those below
`10 ^ -400` are zero, whatever their digits, so that no power beyond these is ever formed.
-/
def toBinary64 (negative : Bool) (d : Decimal) : Binary64 :=
  let leading := d.exponent + digitCount d.digits
  if d.digits = 0 ∨ leading < -400 then .round negative 0 1
  else if leading > 400 then .infinite negative
  else .round negative (d.digits * Binary64.unitsPerOne * 10 ^ d.exponent.toNat)
    (10 ^ (-d.exponent).toNat)

def gridUnits (k : Int) : Nat :=
  Binary64.unitsPerOne * 10 ^ k.toNat

def gridParts (k : Int) : Nat :=
  10 ^ (-k).toNat

/--
The exponent of the leading decimal digit of `u` units: `10 ^ e` is at most `u / 2 ^ 1074` and
`10 ^ (e + 1)` is more. Zero counts as having its digit before the point.
-/
def leadingExponent (u : Nat) : Int :=
  if u = 0 then 0
  else if Binary64.unitsPerOne ≤ u then digitCount (u / Binary64.unitsPerOne) - 1
  else -(digitCount ((Binary64.unitsPerOne - 1) / u))

def rounded (u n : Nat) : Decimal :=
  let k := leadingExponent u - (n - 1)
  let c := Binary64.nearest (u * gridParts k) (gridUnits k)
  if c = 10 ^ n then ⟨10 ^ (n - 1), k + 1⟩ else ⟨c, k⟩

def readsBack (u c : Nat) (k : Int) : Bool :=
  Binary64.roundUnits (c * gridUnits k) (gridParts k) == u

/--
A decimal with the fewest digits that reads back as `u` units, of several the nearest one, and of two
equally near ones the one with the even last digit. Seventeen digits always suffice.
-/
def shortest (u : Nat) : Decimal :=
  if u = 0 then ⟨0, 0⟩ else go 17 (leadingExponent u)
where
  go : Nat → Int → Decimal
    | 0, k => ⟨Binary64.nearest (u * gridParts k) (gridUnits k), k⟩
    | n + 1, k =>
      let below := u * gridParts k / gridUnits k
      match readsBack u below k, readsBack u (below + 1) k with
      | true, true => ⟨Binary64.nearest (u * gridParts k) (gridUnits k), k⟩
      | true, false => ⟨below, k⟩
      | false, true => ⟨below + 1, k⟩
      | false, false => go n (k - 1)

end Decimal

end RowSweep
