import RowSweep.Json.Writer

/-!
This module contains the data that a diagnostic carries as its witness: evidence as it comes from the
computation, its plain form, and the one text that stands for it.
-/

namespace RowSweep

inductive EvidenceKey where
  | text (value : String)
  | integer (value : Int)
  | other
  deriving DecidableEq

/--
Data as it comes from the computation: besides plain data there are elements and arrays of a numeric
array, tuples, mappings with keys that are not text, and things that are not data.
-/
inductive Evidence where
  | null
  | boolean (value : Bool)
  | integer (value : Int)
  | real (value : Binary64)
  | text (value : String)
  | element (value : Evidence)
  | list (items : List Evidence)
  | tuple (items : List Evidence)
  | array (items : List Evidence)
  | mapping (entries : List (EvidenceKey × Evidence))
  | foreign
  deriving Inhabited

inductive WitnessFault where
  | keyNotText
  | foreign
  deriving DecidableEq

namespace WitnessFault

def message : WitnessFault → String
  | keyNotText => "witness object keys must be strings"
  | foreign => "witness must be JSON-serializable"

end WitnessFault

namespace Evidence

mutual

/--
The plain form: elements become numbers, tuples and arrays become lists, and keys come in increasing
order. The faults of a mapping are found in that order too, but a key that is not text comes first.
-/
def plain : Evidence → Except WitnessFault Document
  | null => .ok .null
  | boolean b => .ok (.boolean b)
  | integer i => .ok (.integer i)
  | real x => .ok (.real x)
  | text s => .ok (.text s)
  | element e => plain e
  | list items | tuple items | array items => do return .sequence (← plainItems items)
  | mapping entries => do
    let found ← plainEntries entries
    let entries ← (Document.sortEntries found).mapM fun (key, item) => item.map (key, ·)
    return .mapping entries
  | foreign => .error .foreign

def plainItems : List Evidence → Except WitnessFault (List Document)
  | [] => .ok []
  | item :: rest => do
    let first ← plain item
    let others ← plainItems rest
    return first :: others

def plainEntries :
    List (EvidenceKey × Evidence) → Except WitnessFault (List (String × Except WitnessFault Document))
  | [] => .ok []
  | (.text key, item) :: rest => do
    let others ← plainEntries rest
    return (key, plain item) :: others
  | (.integer _, _) :: _ | (.other, _) :: _ => .error .keyNotText

end

mutual

def ofDocument : Document → Evidence
  | .null => null
  | .boolean b => boolean b
  | .integer i => integer i
  | .real x => real x
  | .text s => text s
  | .sequence items => list (ofItems items)
  | .mapping entries => mapping (ofEntries entries)
  | .foreign _ => foreign

def ofItems : List Document → List Evidence
  | [] => []
  | item :: rest => ofDocument item :: ofItems rest

def ofEntries : List (String × Document) → List (EvidenceKey × Evidence)
  | [] => []
  | (key, item) :: rest => (.text key, ofDocument item) :: ofEntries rest

end

def witness (e : Evidence) : Except WitnessFault (Option Document) :=
  e.plain.map fun
    | .null => none
    | document => some document

end Evidence

def witnessText : Option Document → String
  | none => ""
  | some document => Json.write document.sortKeys

end RowSweep
