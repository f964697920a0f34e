import RowSweep.Binary64.Basic

/-!
This module contains documents: the data that matrix files, threshold files and witnesses are made of.
-/

namespace RowSweep

inductive Breakdown where
  | undecodable
  | invalidLiteral
  | outOfRange
  | tooDeep
  | unknownWord
  | emptyNumeral
  | noDate
  | collectionAsDate
  deriving DecidableEq

inductive ReadFault where
  | malformed
  | breakdown (cause : Breakdown)
  deriving DecidableEq

inductive Document where
  | null
  | boolean (value : Bool)
  | integer (value : Int)
  | real (value : Binary64)
  | text (value : String)
  | sequence (items : List Document)
  | mapping (entries : List (String × Document))
  | foreign (numeral : String)
  deriving Inhabited

namespace Document

def insertEntry (key : String) (value : α) : List (String × α) → List (String × α)
  | [] => [(key, value)]
  | (k, v) :: rest => if k = key then (k, value) :: rest else (k, v) :: insertEntry key value rest

def insertSorted (key : String) (value : α) : List (String × α) → List (String × α)
  | [] => [(key, value)]
  | (k, v) :: rest =>
    if k < key then (k, v) :: insertSorted key value rest
    else if k = key then (key, value) :: rest
    else (key, value) :: (k, v) :: rest

def sortEntries (entries : List (String × α)) : List (String × α) :=
  entries.foldl (fun sorted (k, v) => insertSorted k v sorted) []

mutual

def sortKeys : Document → Document
  | sequence items => sequence (sortItemKeys items)
  | mapping entries => mapping (sortEntries (sortEntryKeys entries))
  | document => document

def sortItemKeys : List Document → List Document
  | [] => []
  | item :: rest => sortKeys item :: sortItemKeys rest

def sortEntryKeys : List (String × Document) → List (String × Document)
  | [] => []
  | (key, item) :: rest => (key, sortKeys item) :: sortEntryKeys rest

end

def get? (key : String) : Document → Option Document
  | mapping entries => entries.lookup key
  | _ => none

end Document

structure Reader where
  read : String → Except ReadFault Document
  complaint : String → String

end RowSweep
