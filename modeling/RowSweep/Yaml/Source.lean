/-!
This module contains the text of a YAML stream as a list of characters that know where they stand. The
layout of the lines carries meaning, so every later step asks for lines and columns.
-/

namespace RowSweep.Yaml

structure Place where
  char : Char
  index : Nat
  line : Nat
  column : Nat

abbrev Source := List Place

def isBreak (c : Char) : Bool :=
  c == '\n' || c == '\u0085' || c == '\u2028' || c == '\u2029'

def isGap (c : Char) : Bool :=
  c == ' ' || c == '\t' || isBreak c

def isPrintable (c : Char) : Bool :=
  let n := c.toNat
  c == '\t' || c == '\n' || c == '\r' || (0x20 ≤ n && n ≤ 0x7E) || n == 0x85 ||
    (0xA0 ≤ n && n ≤ 0xFFFD) || 0x10000 ≤ n

def unifyBreaks : List Char → List Char
  | '\r' :: '\n' :: s => '\n' :: unifyBreaks s
  | '\r' :: s => '\n' :: unifyBreaks s
  | c :: s => c :: unifyBreaks s
  | [] => []

namespace Source

def locate (index line column : Nat) : List Char → Source
  | [] => []
  | c :: s =>
    ⟨c, index, line, column⟩ ::
      if isBreak c then locate (index + 1) (line + 1) 0 s
      else locate (index + 1) line (if c == '\ufeff' then column else column + 1) s

def ofCharacters? (s : List Char) : Option Source :=
  let s := unifyBreaks s
  if s.all isPrintable then
    match s with
    | '\ufeff' :: s => some (locate 1 0 0 s)
    | s => some (locate 0 0 0 s)
  else none

def endPlace (s : Source) : Place :=
  match s.getLast? with
  | none => ⟨'\x00', 0, 0, 0⟩
  | some p =>
    if isBreak p.char then ⟨'\x00', p.index + 1, p.line + 1, 0⟩
    else ⟨'\x00', p.index + 1, p.line, p.column + 1⟩

def atSpace : Source → Bool
  | [] => true
  | p :: _ => p.char == ' ' || isBreak p.char

def atGap : Source → Bool
  | [] => true
  | p :: _ => isGap p.char

def atMarker (c : Char) : Source → Bool
  | p :: q :: r :: rest =>
    p.column == 0 && p.char == c && q.char == c && r.char == c && atGap rest
  | _ => false

def atDocumentMarker (s : Source) : Bool :=
  s.atMarker '-' || s.atMarker '.'

def dropSpaces (s : Source) : Source :=
  s.dropWhile (·.char == ' ')

def endLine? (s : Source) : Option Source :=
  let s : Source := match s.dropSpaces with
    | p :: rest => if p.char == '#' then rest.dropWhile (!isBreak ·.char) else p :: rest
    | [] => []
  match s with
  | p :: rest => if isBreak p.char then some rest else none
  | [] => some []

end Source

end RowSweep.Yaml
