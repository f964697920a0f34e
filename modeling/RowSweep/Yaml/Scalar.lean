import RowSweep.Document
import RowSweep.Text.Character
import RowSweep.Text.Units
import RowSweep.Yaml.Source

/-!
This module contains the reading of scalars: plain ones, which run on as long as the text around them
allows, and quoted ones. In both a single line break within the text counts as a space, and of several
the first one does not count.
-/

namespace RowSweep.Yaml.Scalar

open Text

def breakText (c : Char) : Char :=
  if c == '\u0085' then '\n' else c

def fold (first : Char) (others : List Char) : List Char :=
  if breakText first ≠ '\n' then first :: others
  else if others.isEmpty then [' ']
  else others

def passBreaks (isBlank : Char → Bool) (done : List Char) : Source → Option (List Char) × Source
  | [] => (some done.reverse, [])
  | p :: s =>
    if Source.atDocumentMarker (p :: s) then (none, p :: s)
    else if isBreak p.char then passBreaks isBlank (breakText p.char :: done) s
    else if isBlank p.char then passBreaks isBlank done s
    else (some done.reverse, p :: s)

structure Plain where
  text : List Char
  rest : Source
  newLine : Bool

def isFlowMark (c : Char) : Bool :=
  c == ',' || c == '[' || c == ']' || c == '\x7b' || c == '\x7d'

def endsKey (inFlow : Bool) (s : Source) : Bool :=
  s.atGap || (inFlow && s.head?.any (isFlowMark ·.char))

def endsWord (inFlow : Bool) (p : Place) (s : Source) : Bool :=
  isGap p.char || (p.char == ':' && endsKey inFlow s) ||
    (inFlow && (isFlowMark p.char || p.char == '?'))

/--
Takes a word of plain text off a source, and puts its characters in front of those before it, last one
first.
-/
def plainWord (inFlow : Bool) (done : List Char) : Source → List Char × Source
  | [] => (done, [])
  | p :: s => if endsWord inFlow p s then (done, p :: s) else plainWord inFlow (p.char :: done) s

/--
Takes the space between two words off a source: the text it stands for, which is empty if there can be
no further word, and whether it has a line break.
-/
def plainGap (s : Source) : List Char × Source × Bool :=
  match s.dropWhile (·.char == ' ') with
  | [] => ([], [], false)
  | p :: rest =>
    if isBreak p.char then
      match passBreaks (· == ' ') [] rest with
      | (some others, rest) => (fold p.char others, rest, true)
      | (none, rest) => ([], rest, true)
    else ((s.takeWhile (·.char == ' ')).map (·.char), p :: rest, false)

/--
Reads a plain scalar. Outside flow collections it goes on as long as its lines stand at or behind the
column `least`. The fuel bounds the characters that are left.
-/
def plain (inFlow : Bool) (least : Nat) (fuel : Nat) (s : Source) : Plain :=
  go fuel [] [] false s
where
  go : Nat → List Char → List Char → Bool → Source → Plain
    | 0, done, _, newLine, s => ⟨done.reverse, s, newLine⟩
    | _, done, _, newLine, [] => ⟨done.reverse, [], newLine⟩
    | fuel + 1, done, gap, newLine, p :: s =>
      if endsWord inFlow p s then ⟨done.reverse, p :: s, newLine⟩
      else
        let (done, rest) := plainWord inFlow (gap.reverse ++ done) (p :: s)
        let (gap, rest, newLine) := plainGap rest
        if gap.isEmpty || rest.head?.any (fun p => p.char == '#' || (!inFlow && p.column < least)) then
          ⟨done.reverse, rest, newLine⟩
        else go fuel done gap newLine rest

def escape? : Char → Option Char
  | '0' => some '\x00'
  | 'a' => some '\x07'
  | 'b' => some '\x08'
  | 't' | '\t' => some '\t'
  | 'n' => some '\n'
  | 'v' => some '\x0b'
  | 'f' => some '\x0c'
  | 'r' => some '\r'
  | 'e' => some '\x1b'
  | ' ' => some ' '
  | '"' => some '"'
  | '\\' => some '\\'
  | '/' => some '/'
  | 'N' => some '\u0085'
  | '_' => some '\u00a0'
  | 'L' => some '\u2028'
  | 'P' => some '\u2029'
  | _ => none

def escapeLength? : Char → Option Nat
  | 'x' => some 2
  | 'u' => some 4
  | 'U' => some 8
  | _ => none

def maxCode : Nat :=
  0x7FFFFFFF

def code (k : Nat) (s : Source) : Except ReadFault (Nat × Source) :=
  match (s.take k).mapM fun p => hexValue? p.char with
  | none => .error .malformed
  | some ds =>
    let n := ds.foldl (fun n d => 16 * n + d) 0
    if ds.length < k then .error .malformed
    else if n > maxCode then .error (.breakdown .outOfRange)
    else if n ≥ 0x110000 then .error (.breakdown .invalidLiteral)
    else .ok (n, s.drop k)

def escaped : Source → Except ReadFault (List Nat × Source)
  | [] => .error .malformed
  | p :: s =>
    match escape? p.char, escapeLength? p.char with
    | some c, _ => .ok ([c.toNat], s)
    | none, some k => (code k s).map fun (n, rest) => ([n], rest)
    | none, none =>
      if isBreak p.char then
        match passBreaks (fun c => c == ' ' || c == '\t') [] s with
        | (some others, rest) => .ok (others.map (·.toNat), rest)
        | (none, _) => .error .malformed
      else .error .malformed

def quotedGap? (s : Source) : Option (List Char × Source) :=
  let isBlank (c : Char) := c == ' ' || c == '\t'
  match s.dropWhile (isBlank ·.char) with
  | [] => none
  | p :: rest =>
    if isBreak p.char then
      match passBreaks isBlank [] rest with
      | (some others, rest) => some (fold p.char others, rest)
      | (none, _) => none
    else some ((s.takeWhile (isBlank ·.char)).map (·.char), p :: rest)

/--
Reads the inside of a quoted scalar and its closing quote, and puts the numbers of its characters in front
of those before them, last one first. The fuel bounds the characters that are left.
-/
def quoted (double : Bool) : Nat → List Nat → Source → Except ReadFault (List Nat × Source)
  | 0, _, _ => .error .malformed
  | _, _, [] => .error .malformed
  | fuel + 1, done, p :: s =>
    if isGap p.char then
      match quotedGap? (p :: s) with
      | some (gap, rest) => quoted double fuel ((gap.map (·.toNat)).reverse ++ done) rest
      | none => .error .malformed
    else if double && p.char == '"' then .ok (done, s)
    else if double && p.char == '\\' then do
      let (found, rest) ← escaped s
      quoted double fuel (found.reverse ++ done) rest
    else if !double && p.char == '\'' then
      match s with
      | q :: rest =>
        if q.char == '\'' then quoted double fuel ('\''.toNat :: done) rest else .ok (done, s)
      | [] => .ok (done, [])
    else quoted double fuel (p.char.toNat :: done) s

def quotedText (double : Bool) (fuel : Nat) (s : Source) : Except ReadFault (List Char × Source) := do
  let (done, rest) ← quoted double fuel [] s
  return (ofUnits done.reverse, rest)

end RowSweep.Yaml.Scalar
