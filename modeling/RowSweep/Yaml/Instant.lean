import RowSweep.Decimal.Reader

/-!
This module contains the texts of dates, with or without a time of day and its distance from the zero
meridian.
-/

namespace RowSweep.Yaml

structure ClockTime where
  hour : Nat
  minute : Nat
  second : Nat
  offset : Nat

structure Instant where
  year : Nat
  month : Nat
  day : Nat
  full : Bool
  time : Option ClockTime

namespace Instant

open Text Decimal

def short? (s : List Char) : Option (List Char × List Char) :=
  let ds := (s.take 2).takeWhile isAsciiDigit
  if ds.isEmpty then none else some (ds, s.drop ds.length)

def exactly? (k : Nat) (s : List Char) : Option (Nat × List Char) :=
  if (s.take k).length = k && (s.take k).all isAsciiDigit then some (ofDigits (s.take k), s.drop k)
  else none

def skip? (c : Char) : List Char → Option (List Char)
  | d :: s => if d == c then some s else none
  | [] => none

def isGap (c : Char) : Bool :=
  c == ' ' || c == '\t'

def offset? (s : List Char) : Option Nat :=
  if s.isEmpty then some 0
  else
    match s.dropWhile isGap with
    | ['Z'] => some 0
    | c :: s => do
      if c ≠ '+' ∧ c ≠ '-' then none
      let (hours, s) ← short? s
      if s.isEmpty then return 60 * ofDigits hours
      let (minutes, s) ← exactly? 2 (← skip? ':' s)
      if s.isEmpty then return 60 * ofDigits hours + minutes else none
    | [] => none

def time? (s : List Char) : Option ClockTime := do
  let (hour, s) ← short? s
  let (minute, s) ← exactly? 2 (← skip? ':' s)
  let (second, s) ← exactly? 2 (← skip? ':' s)
  let s := match s with
    | '.' :: s => s.dropWhile isAsciiDigit
    | s => s
  return ⟨ofDigits hour, minute, second, ← offset? s⟩

def optionalTime? : List Char → Option (Option ClockTime)
  | [] => some none
  | c :: s =>
    if c == 'T' || c == 't' then (time? s).map some
    else if isGap c then (time? (s.dropWhile isGap)).map some
    else none

def ofText? (s : List Char) : Option Instant := do
  let (year, s) ← exactly? 4 s
  let (month, s) ← short? (← skip? '-' s)
  let (day, s) ← short? (← skip? '-' s)
  let time ← optionalTime? s
  return ⟨year, ofDigits month, ofDigits day, month.length = 2 && day.length = 2, time⟩

def isLeap (year : Nat) : Bool :=
  year % 4 = 0 && (year % 100 ≠ 0 || year % 400 = 0)

def daysOf (year month : Nat) : Nat :=
  if month = 2 then if isLeap year then 29 else 28
  else if month = 4 ∨ month = 6 ∨ month = 9 ∨ month = 11 then 30
  else 31

def isClockTime (t : ClockTime) : Bool :=
  t.hour < 24 && t.minute < 60 && t.second < 60 && t.offset < 24 * 60

def exists? (i : Instant) : Bool :=
  1 ≤ i.year && 1 ≤ i.month && i.month ≤ 12 && 1 ≤ i.day && i.day ≤ daysOf i.year i.month &&
    i.time.all isClockTime

end Instant

end RowSweep.Yaml
