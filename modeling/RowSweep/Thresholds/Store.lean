import RowSweep.File.Folder
import RowSweep.Thresholds.Reader

/-!
This module contains the loading of thresholds from files. A store keeps what it has loaded: a file is read
once and its thresholds stay, while a file that could not be loaded is read again.
-/

namespace RowSweep

inductive LoadFault where
  | unreadable (name : String) (problem : FileProblem)
  | malformed (name reason : String)
  | invalid (fault : ThresholdFault)
  deriving DecidableEq

namespace LoadFault

def code : LoadFault → String
  | unreadable .. => "E_SOLVER_CONFIG_READ_FAILED"
  | malformed .. => "E_SOLVER_CONFIG_PARSE_FAILED"
  | invalid _ => "E_SOLVER_CONFIG_INVALID"

def message : LoadFault → String
  | unreadable name problem =>
    s!"unable to read solver thresholds artifact '{name}': {problem.message name}"
  | malformed name reason => s!"invalid solver thresholds yaml in '{name}': {reason}"
  | invalid fault => fault.message

end LoadFault

inductive LoadError where
  | rejected (fault : LoadFault)
  | breakdown (cause : Breakdown)
  deriving DecidableEq

namespace Thresholds

def ofText (yaml : Reader) (name text : String) : Except LoadError Thresholds :=
  match yaml.read text with
  | .error .malformed => .error (.rejected (.malformed name (yaml.complaint text)))
  | .error (.breakdown cause) => .error (.breakdown cause)
  | .ok document =>
    match ofDocument document name with
    | .error (.rejected fault) => .error (.rejected (.invalid fault))
    | .error .outOfRange => .error (.breakdown .outOfRange)
    | .ok thresholds => .ok thresholds

def load (yaml : Reader) (name : String) (content : FileContent) : Except LoadError Thresholds :=
  match content with
  | .unreadable problem => .error (.rejected (.unreadable name problem))
  | .undecodable => .error (.breakdown .undecodable)
  | .text s => ofText yaml name s

end Thresholds

structure ThresholdStore where
  yaml : Reader
  folder : Folder
  loaded : List (Path × Thresholds)

namespace ThresholdStore

def ofFolder (yaml : Reader) (folder : Folder) : ThresholdStore :=
  ⟨yaml, folder, []⟩

def write (s : ThresholdStore) (file : Path) (content : FileContent) :
    Except FileProblem ThresholdStore := do
  return { s with folder := ← s.folder.put file content }

def erase (s : ThresholdStore) (file : Path) : Except FileProblem ThresholdStore := do
  return { s with folder := ← s.folder.remove file }

def load (s : ThresholdStore) (file : Path) : Except LoadError Thresholds × ThresholdStore :=
  let place := file.settle
  match s.loaded.lookup place with
  | some thresholds => (.ok thresholds, s)
  | none =>
    match Thresholds.load s.yaml place.text (s.folder.visit place) with
    | .ok thresholds => (.ok thresholds, { s with loaded := (place, thresholds) :: s.loaded })
    | .error e => (.error e, s)

end ThresholdStore

end RowSweep
