import RowSweep.Text.Character
import RowSweep.Yaml.Source

/-!
This module contains tags, which say what kind of data a node is. A written tag is a handle, which stands
for the start of a name, and the rest of the name; percent signs with two digits stand for bytes.
-/

namespace RowSweep.Yaml

inductive Tag where
  | null
  | truth
  | integer
  | real
  | bytes
  | instant
  | text
  | sequence
  | mapping
  | set
  | entries
  | merge
  | mainValue
  | unknown
  deriving DecidableEq

namespace Tag

def standard : String :=
  "tag:yaml.org,2002:"

def names : List (String × Tag) :=
  [("null", null), ("bool", truth), ("int", integer), ("float", real), ("binary", bytes),
   ("timestamp", instant), ("str", text), ("seq", sequence), ("map", mapping), ("set", set),
   ("omap", entries), ("pairs", entries), ("merge", merge), ("value", mainValue)]

def ofName (name : String) : Tag :=
  (names.find? fun (ending, _) => name = standard ++ ending).elim unknown (·.2)

def isCollection : Tag → Bool
  | sequence | mapping | set | entries => true
  | _ => false

end Tag

structure WrittenTag where
  handle : Option String
  rest : String
  deriving DecidableEq

namespace WrittenTag

open Text

def isNameChar (c : Char) : Bool :=
  c.isAlphanum || c == '-' || c == '_'

def isUriChar (c : Char) : Bool :=
  c.isAlphanum || "-;/?:@&=+$,_.!~*'()[]".toList.contains c

def percentBytes? (done : List UInt8) : Source → Option (List UInt8 × Source)
  | p :: q :: r :: s =>
    if p.char == '%' then
      match hexValue? q.char, hexValue? r.char with
      | some a, some b => percentBytes? ((16 * a + b).toUInt8 :: done) s
      | _, _ => none
    else some (done.reverse, p :: q :: r :: s)
  | p :: s => if p.char == '%' then none else some (done.reverse, p :: s)
  | [] => some (done.reverse, [])

def uriChars? : Nat → List Char → Source → Option (List Char × Source)
  | 0, _, _ => none
  | _, done, [] => some (done, [])
  | fuel + 1, done, p :: s =>
    if p.char == '%' then do
      let (bytes, rest) ← percentBytes? [] (p :: s)
      let text ← String.fromUTF8? ⟨bytes.toArray⟩
      uriChars? fuel (text.toList.reverse ++ done) rest
    else if isUriChar p.char then uriChars? fuel (p.char :: done) s
    else some (done, p :: s)

def uri? (s : Source) : Option (String × Source) := do
  let (done, rest) ← uriChars? (s.length + 1) [] s
  if done.isEmpty then none else return (String.ofList done.reverse, rest)

def handle? (s : Source) : Option (String × Source) :=
  if s.head?.any (·.char == ' ') then some ("!", s)
  else
    match s.dropWhile (isNameChar ·.char) with
    | p :: rest =>
      if p.char == '!' then
        some (String.ofList ('!' :: (s.takeWhile (isNameChar ·.char)).map (·.char) ++ ['!']), rest)
      else none
    | [] => none

def hasHandle (s : Source) : Bool :=
  (s.takeWhile fun p => !(p.char == ' ' || isBreak p.char)).any (·.char == '!')

def verbatim? (s : Source) : Option (WrittenTag × Source) := do
  let (name, rest) ← uri? s
  match rest with
  | p :: rest => if p.char == '>' then return (⟨none, name⟩, rest) else none
  | [] => none

def parts? (s : Source) : Option (WrittenTag × Source) := do
  let (handle, rest) ← if hasHandle s then handle? s else some ("!", s)
  let (name, rest) ← uri? rest
  return (⟨some handle, name⟩, rest)

def read? (s : Source) : Option (WrittenTag × Source) := do
  let (tag, rest) ←
    if s.head?.any (·.char == '<') then verbatim? (s.drop 1)
    else if s.atGap then some (⟨none, "!"⟩, s)
    else parts? s
  if rest.atSpace then return (tag, rest) else none

def name? (handles : List (String × String)) (tag : WrittenTag) : Option String :=
  match tag.handle with
  | none => some tag.rest
  | some handle => (handles.lookup handle).map (· ++ tag.rest)

end WrittenTag

def standardHandles : List (String × String) :=
  [("!", "!"), ("!!", Tag.standard)]

end RowSweep.Yaml
