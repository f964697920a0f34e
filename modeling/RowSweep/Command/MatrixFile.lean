import RowSweep.Diagnostic.Build
import RowSweep.File.Content
import RowSweep.File.Path
import RowSweep.Libraries
import RowSweep.Text.Character

/-!
This module contains the reading of matrix files. The name decides whether a file is JSON or YAML; it holds
a list of rows, or a mapping with the list under the key `matrix`.
-/

namespace RowSweep

inductive MatrixFault where
  | unreadable (problem : FileProblem)
  | malformed (reason : String)
  | noMatrix
  | noRows
  deriving DecidableEq

inductive MatrixError where
  | rejected (fault : MatrixFault)
  | breakdown (cause : Breakdown)
  deriving DecidableEq

namespace MatrixFault

def message (file : Path) : MatrixFault → String
  | unreadable problem => s!"unable to read matrix file '{file.text}': {problem.message file.text}"
  | malformed reason => s!"invalid matrix document '{file.text}': {reason}"
  | noMatrix => "matrix document mapping must contain a 'matrix' key"
  | noRows => "matrix document must hold a list of rows"

def errorType : String :=
  "MatrixLoadError"

def shown (fault : MatrixFault) (file : Path) : String :=
  let s := Text.strip Text.isSpace (fault.message file).toList
  if s.isEmpty then errorType else String.ofList s

def diagnostic (fault : MatrixFault) (file : Path) : Except BuildError Diagnostic :=
  Diagnostic.build
    { code := .text "E_CLI_MATRIX_LOAD_FAILED"
      message := .text ("matrix loader failed: " ++ fault.shown file)
      source := .text "cli.loader"
      witness := .mapping [(.text "matrix_file", .text file.text),
        (.text "error_type", .text errorType)] }

end MatrixFault

namespace MatrixFile

def reader (lib : Libraries) (file : Path) : Reader :=
  if file.isJson then lib.json else lib.yaml

def rows (document : Document) : Except MatrixFault Document :=
  match document with
  | .mapping entries =>
    match entries.lookup "matrix" with
    | some (.sequence items) => .ok (.sequence items)
    | some _ => .error .noRows
    | none => .error .noMatrix
  | .sequence items => .ok (.sequence items)
  | _ => .error .noRows

def load (lib : Libraries) (file : Path) (content : FileContent) : Except MatrixError Document :=
  match content with
  | .unreadable problem => .error (.rejected (.unreadable problem))
  | .undecodable => .error (.breakdown .undecodable)
  | .text s =>
    match (reader lib file).read s with
    | .error .malformed => .error (.rejected (.malformed ((reader lib file).complaint s)))
    | .error (.breakdown cause) => .error (.breakdown cause)
    | .ok document => (rows document).mapError .rejected

end MatrixFile

end RowSweep
