import RowSweep.Yaml.Scalar

/-!
This module contains the reading of block text: the indented lines below a bar, which keeps its line breaks,
or below a greater-than sign, which turns single ones into spaces. The header says what becomes of the
breaks at the end, and by how much the lines are indented if their first one does not show it.
-/

namespace RowSweep.Yaml.BlockText

open Text Scalar

inductive Ending where
  | none
  | single
  | all
  deriving DecidableEq

structure Header where
  ending : Ending := .single
  indent : Option Nat := Option.none

def ending? (c : Char) : Option Ending :=
  if c == '+' then some .all else if c == '-' then some .none else Option.none

def indent? (c : Char) : Option Nat :=
  if '1' ≤ c && c ≤ '9' then some (c.toNat - '0'.toNat) else none

def marks : Source → Header × Source
  | [] => ({}, [])
  | p :: s =>
    match ending? p.char, indent? p.char with
    | some ending, _ =>
      match s with
      | q :: rest =>
        match indent? q.char with
        | some k => ({ ending := ending, indent := k }, rest)
        | none => ({ ending := ending }, s)
      | [] => ({ ending := ending }, [])
    | none, some k =>
      match s with
      | q :: rest =>
        match ending? q.char with
        | some ending => ({ ending := ending, indent := k }, rest)
        | none => ({ indent := some k }, s)
      | [] => ({ indent := some k }, [])
    | none, none => ({}, p :: s)

def header? (s : Source) : Option (Header × Source) := do
  let (header, rest) := marks s
  if rest.atSpace then return (header, ← rest.endLine?) else none

def passBlank (breaks : List Char) (widest : Nat) : Source → List Char × Nat × Source
  | [] => (breaks, widest, [])
  | p :: s =>
    if isBreak p.char then passBlank (breakText p.char :: breaks) widest s
    else if p.char == ' ' then passBlank breaks (max widest (p.column + 1)) s
    else (breaks, widest, p :: s)

def passIndent (column : Nat) (breaks : List Char) : Source → List Char × Source
  | [] => (breaks, [])
  | p :: s =>
    if isBreak p.char then passIndent column (breakText p.char :: breaks) s
    else if p.char == ' ' && p.column < column then passIndent column breaks s
    else (breaks, p :: s)

def atLine (column : Nat) (s : Source) : Bool :=
  s.head?.any (·.column == column)

def startsBlank (s : Source) : Bool :=
  s.head?.any fun p => p.char == ' ' || p.char == '\t'

def takeLine (done : List Char) : Source → List Char × List Char × Source
  | [] => (done, [], [])
  | p :: s =>
    if isBreak p.char then (done, [breakText p.char], s) else takeLine (p.char :: done) s

/--
The text that the break at the end of a line and those of empty lines behind it stand for, when another
line follows. Folding takes away single breaks between lines that do not start with a blank.
-/
def joint (folded : Bool) (lineBreak breaks : List Char) : List Char :=
  if folded && lineBreak == ['\n'] then if breaks.isEmpty then [' '] else breaks
  else lineBreak ++ breaks

/--
Reads the lines from a column on. It gives the text, last character first, the last break, and the breaks of
the empty lines behind it, last one first. The fuel bounds the characters that are left.
-/
def lines (folded : Bool) (column : Nat) :
    Nat → List Char → Source → List Char × List Char × List Char × Source
  | 0, done, s => (done, [], [], s)
  | fuel + 1, done, s =>
    let (text, lineBreak, rest) := takeLine done s
    let (breaks, rest) := passIndent column [] rest
    if atLine column rest then
      let folds := folded && !startsBlank s && !startsBlank rest
      lines folded column fuel ((joint folds lineBreak breaks.reverse).reverse ++ text) rest
    else (text, lineBreak, breaks, rest)

def read? (folded : Bool) (least : Nat) (fuel : Nat) (s : Source) : Option (List Char × Source) := do
  let (header, s) ← header? s
  let least := max 1 least
  let (column, breaks, s) := match header.indent with
    | some k => (least + k - 1, passIndent (least + k - 1) [] s)
    | none =>
      let (breaks, widest, s) := passBlank [] 0 s
      (max least widest, breaks, s)
  let (text, lineBreak, breaks, s) :=
    if atLine column s then lines folded column fuel breaks s else ([], [], breaks, s)
  let text := match header.ending with
    | .none => text
    | .single => lineBreak.reverse ++ text
    | .all => breaks ++ lineBreak.reverse ++ text
  return (text.reverse, s)

end RowSweep.Yaml.BlockText
