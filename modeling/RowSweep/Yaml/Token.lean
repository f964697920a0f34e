import RowSweep.Yaml.BlockText
import RowSweep.Yaml.Directive
import RowSweep.Yaml.Scalar

/-!
This module contains the tokens of a YAML stream. Block collections have no brackets of their own: their
start and end come from the columns in which their entries stand. A key is only known as such when the
colon behind it is met, so each text that may be a key leaves a slot in front of its token. A fault in the
text is a token too, the last one: it counts only if no token before it is out of place.
-/

namespace RowSweep.Yaml

inductive Token where
  | directive (d : Directive)
  | documentStart
  | documentEnd
  | blockSequence
  | blockMapping
  | blockEnd
  | openBracket
  | closeBracket
  | openBrace
  | closeBrace
  | dash
  | comma
  | key
  | value
  | anchor (name : String)
  | reference (name : String)
  | tag (written : WrittenTag)
  | scalar (text : String) (plain : Bool)
  | fault (cause : ReadFault)
  deriving DecidableEq

structure Candidate where
  slot : Nat
  place : Place
  required : Bool

structure Lexer where
  rest : Source
  endPlace : Place
  indents : List Nat := []
  candidate : Option Candidate := none
  outer : List (Option Candidate) := []
  keyAllowed : Bool := true
  slots : List (List Token) := []
  size : Nat := 0

namespace Lexer

def maxKeyLength : Nat :=
  1024

def maxOpen : Nat :=
  2048

def inFlow (l : Lexer) : Bool :=
  !l.outer.isEmpty

def place (l : Lexer) : Place :=
  l.rest.head?.getD l.endPlace

def settled (l : Lexer) : Nat :=
  (l.candidate :: l.outer).foldl
    (fun least c => match c with
      | some found => min least found.slot
      | none => least)
    l.size

def push (l : Lexer) (ts : List Token) : Lexer :=
  { l with slots := ts :: l.slots, size := l.size + 1 }

def emit (l : Lexer) (t : Token) : Lexer :=
  l.push [t]

def fill (l : Lexer) (slot : Nat) (ts : List Token) : Lexer :=
  { l with slots := l.slots.set (l.size - 1 - slot) ts }

def unwind (l : Lexer) (column : Nat) : Lexer :=
  if l.inFlow then l
  else
    let ended := l.indents.takeWhile (column < ·)
    { l with indents := l.indents.drop ended.length }.push (ended.map fun _ => .blockEnd)

def unwindAll (l : Lexer) : Lexer :=
  if l.inFlow then l else { l with indents := [] }.push (l.indents.map fun _ => .blockEnd)

def isDeeper (l : Lexer) (column : Nat) : Bool :=
  l.indents.head?.all (· < column)

def indent (l : Lexer) (column : Nat) (start : Token) : Lexer :=
  if !l.inFlow && l.isDeeper column then
    { l with indents := column :: l.indents }.emit start
  else l

abbrev Step := Except ReadFault Lexer

def dropCandidate (l : Lexer) : Step :=
  if l.candidate.any (·.required) then .error .malformed else .ok { l with candidate := none }

def offerKey (l : Lexer) (p : Place) : Step :=
  if l.keyAllowed then do
    let l ← l.dropCandidate
    let required := !l.inFlow && l.indents.head? == some p.column
    return { l with candidate := some ⟨l.size, p, required⟩ }.push []
  else .ok l

def dropStale (l : Lexer) : Step := do
  let p := l.place
  let keep (c : Option Candidate) : Except ReadFault (Option Candidate) :=
    match c with
    | some found =>
      if found.place.line ≠ p.line ∨ p.index - found.place.index > maxKeyLength then
        if found.required then throw .malformed else return none
      else return c
    | none => return none
  return { l with candidate := ← keep l.candidate, outer := ← l.outer.mapM keep }

/-! ### Tokens -/

def readDirective (l : Lexer) (s : Source) : Step := do
  let l ← l.unwindAll.dropCandidate
  let (d, rest) ← Directive.read s
  return { l.emit (.directive d) with rest := rest, keyAllowed := false }

def marker (l : Lexer) (t : Token) : Step := do
  let l ← l.unwindAll.dropCandidate
  return { l.emit t with rest := l.rest.drop 3, keyAllowed := false }

def openFlow (l : Lexer) (p : Place) (s : Source) (t : Token) : Step := do
  if l.outer.length ≥ maxOpen then throw (.breakdown .tooDeep)
  let l ← l.offerKey p
  return { l.emit t with
    rest := s, candidate := none, outer := l.candidate :: l.outer, keyAllowed := true }

def closeFlow (l : Lexer) (s : Source) (t : Token) : Step :=
  match l.outer with
  | [] => .error .malformed
  | candidate :: outer =>
    .ok { l.emit t with rest := s, candidate := candidate, outer := outer, keyAllowed := false }

def comma (l : Lexer) (s : Source) : Step := do
  let l ← l.dropCandidate
  return { l.emit .comma with rest := s, keyAllowed := true }

def dash (l : Lexer) (p : Place) (s : Source) : Step :=
  if !l.inFlow && !l.keyAllowed then .error .malformed
  else do
    let l ← (l.indent p.column .blockSequence).dropCandidate
    return { l.emit .dash with rest := s, keyAllowed := true }

def questionMark (l : Lexer) (p : Place) (s : Source) : Step :=
  if !l.inFlow && !l.keyAllowed then .error .malformed
  else do
    let l ← (l.indent p.column .blockMapping).dropCandidate
    return { l.emit .key with rest := s, keyAllowed := !l.inFlow }

def colon (l : Lexer) (p : Place) (s : Source) : Step :=
  match l.candidate with
  | some found =>
    let column := found.place.column
    let starts := !l.inFlow && l.isDeeper column
    let l := l.fill found.slot (if starts then [.blockMapping, .key] else [.key])
    let l := { l with
      candidate := none
      indents := if starts then column :: l.indents else l.indents }
    .ok { l.emit .value with rest := s, keyAllowed := false }
  | none =>
    if !l.inFlow && !l.keyAllowed then .error .malformed
    else
      let l := l.indent p.column .blockMapping
      .ok { l.emit .value with rest := s, keyAllowed := !l.inFlow }

def name (l : Lexer) (p : Place) (s : Source) (token : String → Token) : Step := do
  let l ← l.offerKey p
  let found := (s.takeWhile (WrittenTag.isNameChar ·.char)).map (·.char)
  let rest : Source := s.dropWhile (WrittenTag.isNameChar ·.char)
  if found.isEmpty then throw .malformed
  if rest.atGap || rest.head?.any (fun q => "?:,]\x7d%@\x60".toList.contains q.char) then
    return { l.emit (token (String.ofList found)) with rest := rest, keyAllowed := false }
  throw .malformed

def tag (l : Lexer) (p : Place) (s : Source) : Step := do
  let l ← l.offerKey p
  match WrittenTag.read? s with
  | some (written, rest) => return { l.emit (.tag written) with rest := rest, keyAllowed := false }
  | none => throw .malformed

def leastColumn (l : Lexer) : Nat :=
  match l.indents with
  | [] => 0
  | column :: _ => column + 1

def blockText (l : Lexer) (fuel : Nat) (folded : Bool) (s : Source) : Step := do
  let l ← l.dropCandidate
  match BlockText.read? folded l.leastColumn fuel s with
  | some (text, rest) =>
    return { l.emit (.scalar (String.ofList text) false) with rest := rest, keyAllowed := true }
  | none => throw .malformed

def quoted (l : Lexer) (fuel : Nat) (p : Place) (s : Source) : Step := do
  let l ← l.offerKey p
  let (text, rest) ← Scalar.quotedText (p.char == '"') fuel s
  return { l.emit (.scalar (String.ofList text) false) with rest := rest, keyAllowed := false }

def startsPlain (inFlow : Bool) (c : Char) (s : Source) : Bool :=
  if c == '-' then !s.atGap
  else if c == '?' || c == ':' then !inFlow && !s.atGap
  else !(isGap c || ",[]\x7b\x7d#&*!|>'\"%@\x60".toList.contains c)

def plain (l : Lexer) (fuel : Nat) (p : Place) : Step := do
  let l ← l.offerKey p
  let found := Scalar.plain l.inFlow l.leastColumn fuel l.rest
  return { l.emit (.scalar (String.ofList found.text) true) with
    rest := found.rest, keyAllowed := found.newLine }

def token (l : Lexer) (fuel : Nat) (p : Place) (s : Source) : Step := do
  let l := (← l.dropStale).unwind p.column
  if p.char == '%' && p.column == 0 then l.readDirective s
  else if l.rest.atMarker '-' then l.marker .documentStart
  else if l.rest.atMarker '.' then l.marker .documentEnd
  else
    match p.char with
    | '[' => l.openFlow p s .openBracket
    | '\x7b' => l.openFlow p s .openBrace
    | ']' => l.closeFlow s .closeBracket
    | '\x7d' => l.closeFlow s .closeBrace
    | ',' => l.comma s
    | '&' => l.name p s .anchor
    | '*' => l.name p s .reference
    | '!' => l.tag p s
    | '"' | '\'' => l.quoted fuel p s
    | c =>
      if c == '-' && s.atGap then l.dash p s
      else if c == '?' && (l.inFlow || s.atGap) then l.questionMark p s
      else if c == ':' && (l.inFlow || s.atGap) then l.colon p s
      else if (c == '|' || c == '>') && !l.inFlow then l.blockText fuel (c == '>') s
      else if startsPlain l.inFlow c s then l.plain fuel p
      else .error .malformed

def pass (inFlow : Bool) (keyAllowed inComment : Bool) : Source → Bool × Source
  | [] => (keyAllowed, [])
  | p :: s =>
    if isBreak p.char then pass inFlow (keyAllowed || !inFlow) false s
    else if inComment || p.char == ' ' then pass inFlow keyAllowed inComment s
    else if p.char == '#' then pass inFlow keyAllowed true s
    else (keyAllowed, p :: s)

def finish (l : Lexer) : Step := do
  (← l.dropStale).unwindAll.dropCandidate

def broken (l : Lexer) (cause : ReadFault) : List Token :=
  (l.slots.drop (l.size - l.settled)).reverse.flatten ++ [.fault cause]

def tokens : Nat → Lexer → List Token
  | 0, l => l.broken .malformed
  | fuel + 1, l =>
    match l.dropStale with
    | .error cause => l.broken cause
    | .ok l =>
      let (keyAllowed, rest) := pass l.inFlow l.keyAllowed false l.rest
      let next := { l with rest := rest, keyAllowed := keyAllowed }
      match rest with
      | [] =>
        match next.finish with
        | .ok next => next.slots.reverse.flatten
        | .error cause => l.broken cause
      | p :: s =>
        match next.token (fuel + 1) p s with
        | .ok next => tokens fuel next
        | .error cause => l.broken cause

end Lexer

def Token.ofSource (s : Source) : List Token :=
  Lexer.tokens (s.length + 1) { rest := s, endPlace := s.endPlace }

end RowSweep.Yaml
