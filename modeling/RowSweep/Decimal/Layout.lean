import RowSweep.Decimal.Basic

/-!
This module contains the written forms of binary64 values: a layout says how many digits are kept,
which magnitudes are written with the point in place and which with an exponent.
-/

namespace RowSweep.Decimal

structure Layout where
  digits : Option Nat
  trimmed : Bool
  positional : Option (Int × Int)
  wholePoint : Bool

namespace Layout

def exact : Layout :=
  ⟨none, true, some (-4, 16), true⟩

def general (n : Nat) : Layout :=
  ⟨some n, true, some (-4, n), false⟩

def scientific (n : Nat) : Layout :=
  ⟨some (n + 1), false, none, false⟩

def trim (ds : List Char) : List Char :=
  match (ds.reverse.dropWhile (· == '0')).reverse with
  | [] => ['0']
  | kept => kept

def digitText (layout : Layout) (d : Decimal) : List Char :=
  let ds := if d.digits = 0 then List.replicate (layout.digits.getD 1) '0' else Nat.toDigits 10 d.digits
  if layout.trimmed then trim ds else ds

def positionalText (wholePoint : Bool) (ds : List Char) (leading : Int) : List Char :=
  if leading < 0 then
    '0' :: '.' :: List.replicate (-leading - 1).toNat '0' ++ ds
  else
    let whole := leading.toNat + 1
    if ds.length ≤ whole then
      ds ++ List.replicate (whole - ds.length) '0' ++ if wholePoint then ['.', '0'] else []
    else
      ds.take whole ++ '.' :: ds.drop whole

def exponentText (e : Int) : List Char :=
  let ds := Nat.toDigits 10 e.natAbs
  'e' :: (if e < 0 then '-' else '+') :: (if ds.length < 2 then '0' :: ds else ds)

def scientificText (ds : List Char) (leading : Int) : List Char :=
  match ds with
  | [] => exponentText leading
  | [c] => c :: exponentText leading
  | c :: rest => c :: '.' :: rest ++ exponentText leading

def magnitudeText (layout : Layout) (u : Nat) : List Char :=
  let d := match layout.digits with
    | none => shortest u
    | some n => rounded u n
  let leading : Int := if u = 0 then 0 else d.exponent + digitCount d.digits - 1
  let ds := layout.digitText d
  match layout.positional with
  | some (low, high) =>
    if low ≤ leading ∧ leading < high then positionalText layout.wholePoint ds leading
    else scientificText ds leading
  | none => scientificText ds leading

def write (layout : Layout) : Binary64 → String
  | .nan => "nan"
  | .infinite negative => if negative then "-inf" else "inf"
  | .finite negative u _ =>
    let text := layout.magnitudeText u
    String.ofList (if negative then '-' :: text else text)

end Layout

end RowSweep.Decimal
