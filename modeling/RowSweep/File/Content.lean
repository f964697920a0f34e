import RowSweep.Json.Writer
import RowSweep.Text.Hidden

/-!
This module contains what is found under the name of a file: text, bytes that are no text, or no file that
can be read.
-/

namespace RowSweep

inductive FileProblem where
  | missing
  | notDirectory
  | isDirectory
  | nameTooLong
  deriving DecidableEq

namespace FileProblem

def number : FileProblem → Nat
  | missing => 2
  | notDirectory => 20
  | isDirectory => 21
  | nameTooLong => 36

def description : FileProblem → String
  | missing => "No such file or directory"
  | notDirectory => "Not a directory"
  | isDirectory => "Is a directory"
  | nameTooLong => "File name too long"

def codeEscape (n : Nat) : List Char :=
  if n < 0x100 then ['\\', 'x', Json.hexDigit (n / 16), Json.hexDigit n]
  else if n < 0x10000 then Json.unitEscape n
  else '\\' :: 'U' :: ((Json.unitEscape (n / 0x10000)).drop 2 ++ (Json.unitEscape n).drop 2)

def showChar (mark c : Char) : List Char :=
  if c == mark || c == '\\' then ['\\', c]
  else if c == '\n' then ['\\', 'n']
  else if c == '\r' then ['\\', 'r']
  else if c == '\t' then ['\\', 't']
  else if Text.isHidden c then codeEscape c.toNat
  else [c]

def quoteName (name : String) : String :=
  let s := name.toList
  let mark := if s.contains '\'' && !s.contains '"' then '"' else '\''
  String.ofList (mark :: s.flatMap (showChar mark) ++ [mark])

def message (problem : FileProblem) (name : String) : String :=
  s!"[Errno {problem.number}] {problem.description}: {quoteName name}"

end FileProblem

inductive FileContent where
  | text (content : String)
  | undecodable
  | unreadable (problem : FileProblem)
  deriving DecidableEq

namespace FileContent

def ofBytes (bytes : ByteArray) : FileContent :=
  match String.fromUTF8? bytes with
  | some content => text content
  | none => undecodable

end FileContent

end RowSweep
