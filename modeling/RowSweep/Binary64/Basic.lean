import RowSweep.Binary64.Round

/-!
This module contains the type of binary64 values, their order and their rounded arithmetic. Every
operation is the exact result, rounded once to nearest with ties to even.
-/

namespace RowSweep

attribute [local instance (high)] instPowNat

/--
A binary64 value. A finite one is a number of units of `2 ^ -1074` with a sign of its own, so that
both zeros exist; all not-a-number patterns are one value.
-/
inductive Binary64 where
  | nan
  | infinite (negative : Bool)
  | finite (negative : Bool) (units : Nat) (fits : Binary64.Fits units)
  deriving DecidableEq

namespace Binary64

def unitsPerOne : Nat :=
  2 ^ (1074 : Nat)

theorem fits_zero : Fits 0 := by decide

def zero : Binary64 :=
  .finite false 0 fits_zero

instance : Inhabited Binary64 := ⟨zero⟩

/--
The value nearest to `n / d` units with the given sign. A magnitude that rounds to `2 ^ 1024` or
more becomes infinite.
-/
def round (negative : Bool) (n d : Nat) : Binary64 :=
  let u := roundUnits n d
  if h : u.log2 < 2098 then .finite negative u ⟨spareBits_dvd_roundUnits n d, h⟩
  else .infinite negative

def signed (negative : Bool) (u : Nat) : Int :=
  if negative then -u else u

def ofInt (i : Int) : Binary64 :=
  round (decide (i < 0)) (i.natAbs * unitsPerOne) 1

def ofNat (n : Nat) : Binary64 :=
  round false (n * unitsPerOne) 1

def one : Binary64 :=
  ofNat 1

def isNaN : Binary64 → Bool
  | nan => true
  | _ => false

def isFinite : Binary64 → Bool
  | finite .. => true
  | _ => false

def isZero : Binary64 → Bool
  | finite _ u _ => u == 0
  | _ => false

def isPositive : Binary64 → Bool
  | nan => false
  | infinite s => !s
  | finite s u _ => !s && u != 0

def integer? : Binary64 → Option Int
  | finite s u _ => if u % unitsPerOne = 0 then some (signed s (u / unitsPerOne)) else none
  | _ => none

def lt : Binary64 → Binary64 → Bool
  | nan, _ | _, nan => false
  | infinite s, infinite t => s && !t
  | infinite s, finite .. => s
  | finite .., infinite t => !t
  | finite s u _, finite t v _ => decide (signed s u < signed t v)

def le : Binary64 → Binary64 → Bool
  | nan, _ | _, nan => false
  | infinite s, infinite t => s || !t
  | infinite s, finite .. => s
  | finite .., infinite t => !t
  | finite s u _, finite t v _ => decide (signed s u ≤ signed t v)

def eqv (x y : Binary64) : Bool :=
  x.le y && y.le x

def larger (x y : Binary64) : Binary64 :=
  if x.lt y then y else x

def max (x y : Binary64) : Binary64 :=
  if x.isNaN || y.isNaN then nan else x.larger y

def min (x y : Binary64) : Binary64 :=
  if x.isNaN || y.isNaN then nan else if y.lt x then y else x

def neg : Binary64 → Binary64
  | nan => nan
  | infinite s => infinite (!s)
  | finite s u h => finite (!s) u h

def abs : Binary64 → Binary64
  | nan => nan
  | infinite _ => infinite false
  | finite _ u h => finite false u h

def add : Binary64 → Binary64 → Binary64
  | nan, _ | _, nan => nan
  | infinite s, infinite t => if s = t then infinite s else nan
  | infinite s, finite .. => infinite s
  | finite .., infinite t => infinite t
  | finite s u _, finite t v _ =>
    let sum := signed s u + signed t v
    if sum = 0 then finite (s && t) 0 fits_zero else round (decide (sum < 0)) sum.natAbs 1

def sub (x y : Binary64) : Binary64 :=
  x.add y.neg

def mul : Binary64 → Binary64 → Binary64
  | nan, _ | _, nan => nan
  | infinite s, infinite t => infinite (s != t)
  | infinite s, finite t v _ => if v = 0 then nan else infinite (s != t)
  | finite s u _, infinite t => if u = 0 then nan else infinite (s != t)
  | finite s u _, finite t v _ => round (s != t) (u * v) unitsPerOne

def div : Binary64 → Binary64 → Binary64
  | nan, _ | _, nan => nan
  | infinite _, infinite _ => nan
  | infinite s, finite t .. => infinite (s != t)
  | finite s .., infinite t => finite (s != t) 0 fits_zero
  | finite s u _, finite t v _ =>
    if v = 0 then if u = 0 then nan else infinite (s != t)
    else round (s != t) (u * unitsPerOne) v

def scale (x : Binary64) (k : Int) : Binary64 :=
  match x with
  | finite s u _ => round s (u * 2 ^ k.toNat) (2 ^ (-k).toNat)
  | x => x

def sqrtFloor (n : Nat) : Nat :=
  if h : n = 0 then 0
  else
    let r := 2 * sqrtFloor (n / 4)
    if (r + 1) * (r + 1) ≤ n then r + 1 else r
termination_by n

/--
The square root. The floor of the root of a nonzero radicand has far more digits than the result
keeps, so one digit that tells whether the root is exact is enough to round it.
-/
def sqrt : Binary64 → Binary64
  | nan => nan
  | infinite s => if s then nan else infinite false
  | finite s u h =>
    if u = 0 then finite s u h
    else if s then nan
    else
      let radicand := u * unitsPerOne
      let root := sqrtFloor radicand
      round false (2 * root + if root * root = radicand then 0 else 1) 2

instance : Neg Binary64 := ⟨neg⟩
instance : Add Binary64 := ⟨add⟩
instance : Sub Binary64 := ⟨sub⟩
instance : Mul Binary64 := ⟨mul⟩
instance : Div Binary64 := ⟨div⟩

def twoPow (k : Int) : Binary64 :=
  one.scale k

def exponent : Binary64 → Int
  | finite _ u _ => (u.log2 : Int) - 1073
  | _ => 0

end Binary64

end RowSweep
