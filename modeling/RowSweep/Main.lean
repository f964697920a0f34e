import RowSweep.Command.Run
import RowSweep.Libraries.Standard

/-!
This module contains the program: it reads the files that a command names, runs the command, and prints what
comes out of it.
-/

namespace RowSweep

def FileContent.read (name : String) : IO FileContent := do
  try
    return .ofBytes (← IO.FS.readBinFile name)
  catch
    | .noFileOrDirectory .. => return .unreadable .missing
    | .inappropriateType _ code _ =>
      return .unreadable (if code = 21 then .isDirectory else .notDirectory)
    | .invalidArgument _ 36 _ => return .unreadable .nameTooLong
    | e => throw e

def Breakdown.description : Breakdown → String
  | undecodable => "a file is not UTF-8 text"
  | invalidLiteral => "a number, character or date cannot be read"
  | outOfRange => "a number is out of range"
  | tooDeep => "a file has too many nested collections"
  | unknownWord => "a word is no truth value"
  | emptyNumeral => "a number has no digits"
  | noDate => "a text is no date"
  | collectionAsDate => "a collection is no date"

def Crash.description : Crash → String
  | breakdown cause => cause.description
  | solve e => (e.describe?.map (·.2)).getD "a number is out of range"
  | diagnostic e => e.message?.getD "a diagnostic has invalid fields"

def usage : String :=
  "usage: rowsweep solve [--format text|json] [--trace] [--thresholds FILE] [--log-level LEVEL] FILE\n" ++
  "       rowsweep check [--format text|json] [--thresholds FILE] FILE"

def Command.execute (c : Command) : IO Outcome := do
  let directory := Path.ofText (← IO.currentDir).toString
  let source ← c.sources.thresholdsFile.mapM fun file => do
    let name := (file.resolve directory).text
    return (⟨name, ← FileContent.read name⟩ : ThresholdSource)
  return c.run .standard source (← FileContent.read c.sources.matrixFile.text)

end RowSweep

open RowSweep in
def main (args : List String) : IO UInt32 := do
  match Command.ofArguments args with
  | .error .usage =>
    IO.eprintln usage
    return 2
  | .error .unusableName =>
    IO.eprintln "error: a file name has a null character"
    return 1
  | .ok c =>
    let outcome ← c.execute
    for line in outcome.logLines c.level do
      IO.eprintln line
    for line in outcome.printed do
      IO.println line
    if let some crash := outcome.crash then
      IO.eprintln s!"error: {crash.description}"
    return outcome.exitCode.toUInt32
