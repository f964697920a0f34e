import RowSweep.Yaml.Graph

/-!
This module contains the reading of YAML text: one document, made of block and flow collections, scalars of
all styles, comments, anchors with references to them, tags and directives.
-/

namespace RowSweep.Yaml

def readCharacters (s : List Char) : Except ReadFault Document := do
  match Source.ofCharacters? s with
  | none => throw .malformed
  | some s =>
    match ← Graph.ofTokens (Token.ofSource s) with
    | none => return .null
    | some g => g.toDocument

def read (text : String) : Except ReadFault Document :=
  readCharacters text.toList

end RowSweep.Yaml
