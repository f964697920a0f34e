import RowSweep.Grid

/-!
This module contains the multipliers that make two rows cancel in a column, the combination of the rows
with them, and the rescaling of the row that comes out.
-/

namespace RowSweep

inductive Sign where
  | plus
  | minus
  deriving DecidableEq

namespace Sign

def apply : Sign → Binary64 → Binary64
  | plus, x => x
  | minus, x => -x

def symbol : Sign → String
  | plus => "+"
  | minus => "-"

end Sign

structure Multipliers where
  target : Binary64
  copy : Binary64
  sign : Sign
  gcd : Nat
  integral : Bool
  deriving DecidableEq

inductive DivisorFault where
  | negative
  | tooLong
  deriving DecidableEq

def maxDivisions : Nat :=
  994

def endsWithin (k x y : Nat) : Bool :=
  if y = 0 then true
  else
    match k with
    | 0 => false
    | k + 1 => endsWithin k y (x % y)

def commonDivisor (x y : Int) : Except DivisorFault Nat :=
  if x < 0 ∨ y < 0 then .error .negative
  else if endsWithin maxDivisions x.natAbs y.natAbs then .ok (Nat.gcd x.natAbs y.natAbs)
  else .error .tooLong

namespace Binary64

def exactLimit : Binary64 :=
  ofNat 9007199254740992

def exactInteger? (x : Binary64) : Option Int :=
  if x.abs.le exactLimit then x.integer? else none

end Binary64

namespace Multipliers

def scaling (pivot lower : Binary64) : Multipliers :=
  let x := pivot.abs
  let y := lower.abs
  let largest := x.larger y
  ⟨y / largest, x / largest, if pivot.isPositive == lower.isPositive then .minus else .plus, 1, false⟩

def integral? (pivot lower : Binary64) : Option Multipliers := do
  let x ← pivot.exactInteger?
  let y ← lower.exactInteger?
  let d := Nat.gcd x.natAbs y.natAbs
  return ⟨.ofNat (y.natAbs / d), .ofNat (x.natAbs / d),
    if pivot.isPositive == lower.isPositive then .minus else .plus, d, true⟩

def ofEntries (integerRatio : Bool) (pivot lower : Binary64) : Multipliers :=
  if integerRatio then (integral? pivot lower).getD (scaling pivot lower) else scaling pivot lower

def ofEntries? (integerRatio : Bool) (pivot lower : Binary64) : Option Multipliers :=
  if pivot.isZero || lower.isZero then none else some (ofEntries integerRatio pivot lower)

def staysExact (k : Multipliers) (upper lower : Row n) : Bool :=
  (k.target * upper.peak + k.copy * lower.peak).le .exactLimit

def combineCell (k : Multipliers) (zeroSnap upper lower : Binary64) : Binary64 :=
  let u := upper * k.target
  let w := lower * k.sign.apply k.copy
  let sum := u + w
  if zeroSnap.isPositive && sum.abs.le (zeroSnap * u.abs.max w.abs) then .zero else sum

def combine (k : Multipliers) (zeroSnap : Binary64) (upper lower : Row n) : Row n :=
  Vector.zipWith (k.combineCell zeroSnap) upper lower

end Multipliers

namespace Row

def integers? (row : Row n) : Option (List Int) :=
  row.toList.mapM (·.integer?)

def content (xs : List Int) : Nat :=
  xs.foldl (fun d x => Nat.gcd d x.natAbs) 0

/--
Divides a row by its content if it consists of integers within the exact range, and otherwise by the
power of two that brings its peak below one. Also gives the divisor, which is infinite for the one
power of two that is no binary64 value.
-/
def rescale (row : Row n) : Row n × Binary64 :=
  let peak := row.peak
  if peak.isZero || !peak.isFinite then (row, .one)
  else
    match if peak.le .exactLimit then row.integers? else none with
    | some xs =>
      let d := content xs
      (if d > 1 then row.map (· / .ofNat d) else row, .ofNat d)
    | none => (row.map (·.scale (-peak.exponent)), .twoPow peak.exponent)

end Row

end RowSweep
