/-!
This module contains the reading of bytes that are written as text, six bits to a character.
-/

namespace RowSweep.Text.Base64

def bits? (c : Char) : Option Nat :=
  if 'A' ≤ c && c ≤ 'Z' then some (c.toNat - 'A'.toNat)
  else if 'a' ≤ c && c ≤ 'z' then some (c.toNat - 'a'.toNat + 26)
  else if '0' ≤ c && c ≤ '9' then some (c.toNat - '0'.toNat + 52)
  else if c == '+' then some 62
  else if c == '/' then some 63
  else none

/--
The bytes of a text. Characters that stand for no bits are passed. Every four that do are a group; the text
ends with a full group, or with one that padding makes full.
-/
def decode? (s : List Char) : Option (List UInt8) :=
  go 0 0 0 s
where
  go (count left pads : Nat) : List Char → Option (List UInt8)
    | [] => if count = 0 then some [] else none
    | c :: s =>
      if c == '=' then
        if 2 ≤ count && 4 ≤ count + pads + 1 then some [] else go count left (pads + 1) s
      else
        match bits? c with
        | none => go count left pads s
        | some v =>
          match count with
          | 0 => go 1 v 0 s
          | 1 => (go 2 (v % 16) 0 s).map ((4 * left + v / 16).toUInt8 :: ·)
          | 2 => (go 3 (v % 4) 0 s).map ((16 * left + v / 4).toUInt8 :: ·)
          | _ => (go 0 0 0 s).map ((64 * left + v).toUInt8 :: ·)

end RowSweep.Text.Base64
