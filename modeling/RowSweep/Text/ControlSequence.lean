/-!
This module contains the removal of control sequences, by which text would change the colors of a terminal
or move its cursor.
-/

namespace RowSweep.Text

def isControlParameter (c : Char) : Bool :=
  c.isDigit || c == ';' || c == '?'

def dropControlSequences (s : List Char) : List Char :=
  go [] s
where
  go (held : List Char) : List Char → List Char
    | [] => held.reverse
    | c :: s =>
      if c == '\x1b' then held.reverse ++ go [c] s
      else if held.isEmpty then c :: go [] s
      else if held == ['\x1b'] then
        if c == '[' then go (c :: held) s else held.reverse ++ c :: go [] s
      else if isControlParameter c then go (c :: held) s
      else if c.isAlpha then go [] s
      else held.reverse ++ c :: go [] s

end RowSweep.Text
