import RowSweep.Decimal.Reader
import RowSweep.Document
import RowSweep.Yaml.Tag

/-!
This module contains directives: lines in front of a document that give its version or declare the handles
of its tags. Other directives are passed.
-/

namespace RowSweep.Yaml

inductive Directive where
  | version (major : Nat)
  | tagHandle (name expansion : String)
  | other
  deriving DecidableEq

namespace Directive

open Text Decimal

def number (s : Source) : Except ReadFault (Nat × Source) :=
  let ds := (s.takeWhile (isAsciiDigit ·.char)).map (·.char)
  if ds.isEmpty then .error .malformed
  else if ds.length > maxDigits then .error (.breakdown .invalidLiteral)
  else .ok (ofDigits ds, s.dropWhile (isAsciiDigit ·.char))

def readVersion (s : Source) : Except ReadFault (Directive × Source) := do
  let (major, rest) ← number s.dropSpaces
  match rest with
  | p :: rest =>
    if p.char ≠ '.' then throw .malformed
    let (_, rest) ← number rest
    if rest.atSpace then return (.version major, rest) else throw .malformed
  | [] => throw .malformed

def readHandle? (s : Source) : Option (Directive × Source) :=
  match s.dropSpaces with
  | p :: s => do
    if p.char ≠ '!' then none
    let (name, rest) ← WrittenTag.handle? s
    if rest.head?.any (·.char == ' ') then
      let (expansion, rest) ← WrittenTag.uri? rest.dropSpaces
      if rest.atSpace then return (.tagHandle name expansion, rest) else none
    else none
  | [] => none

def read (s : Source) : Except ReadFault (Directive × Source) := do
  let name := String.ofList ((s.takeWhile (WrittenTag.isNameChar ·.char)).map (·.char))
  let rest : Source := s.dropWhile (WrittenTag.isNameChar ·.char)
  if name = "" || !rest.atSpace then throw .malformed
  let (directive, rest) ←
    if name = "YAML" then readVersion rest
    else if name = "TAG" then
      match readHandle? rest with
      | some found => pure found
      | none => throw .malformed
    else pure (.other, (rest.dropWhile (!isBreak ·.char) : Source))
  match rest.endLine? with
  | some rest => return (directive, rest)
  | none => throw .malformed

end Directive

end RowSweep.Yaml
