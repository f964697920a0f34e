/-!
This module contains the names of files: parts between slashes, of which empty ones and single dots do not
count.
-/

namespace RowSweep

structure Path where
  root : String
  parts : List String
  deriving DecidableEq

namespace Path

def slashParts (s : List Char) : List (List Char) :=
  let (first, others) := s.foldr
    (fun c (first, others) => if c == '/' then ([], first :: others) else (c :: first, others)) ([], [])
  first :: others

def rootOf (s : List Char) : String :=
  match s.takeWhile (· == '/') with
  | [] => ""
  | ['/', '/'] => "//"
  | _ => "/"

def ofText (text : String) : Path where
  root := rootOf text.toList
  parts := ((slashParts text.toList).map String.ofList).filter fun part => part ≠ "" ∧ part ≠ "."

def text (p : Path) : String :=
  if p.root = "" ∧ p.parts = [] then "." else p.root ++ "/".intercalate p.parts

def name (p : Path) : String :=
  p.parts.getLast?.getD ""

def suffix (p : Path) : List Char :=
  let reversed := p.name.toList.reverse
  let ending := reversed.takeWhile (· != '.')
  match reversed.dropWhile (· != '.') with
  | '.' :: _ :: _ => if ending.isEmpty then [] else '.' :: ending.reverse
  | _ => []

def isJson (p : Path) : Bool :=
  p.suffix.map Char.toLower == ".json".toList

def step (here : Path) (part : String) : Path :=
  if part ≠ ".." then ⟨here.root, here.parts ++ [part]⟩
  else if here.parts.any (· ≠ "..") then ⟨here.root, here.parts.dropLast⟩
  else if here.root = "" then ⟨"", here.parts ++ [".."]⟩
  else here

def start (p : Path) : Path :=
  ⟨if p.root = "" then "" else "/", []⟩

/--
The path without detours: double dots are left only in front, where they lead up from the current
directory.
-/
def settle (p : Path) : Path :=
  p.parts.foldl step p.start

def resolve (p directory : Path) : Path :=
  if p.root = "" then settle ⟨directory.root, directory.parts ++ p.parts⟩ else p.settle

def ofText? (text : String) : Option Path :=
  if text.toList.contains '\x00' then none else some (ofText text)

end Path

end RowSweep
