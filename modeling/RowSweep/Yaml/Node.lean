import RowSweep.Yaml.Pattern
import RowSweep.Yaml.Token

/-!
This module contains the nodes of a YAML document and their reading from tokens. A node is known by its
number, so that a reference to an anchor is the very node of the anchor, also inside of that node.
-/

namespace RowSweep.Yaml

inductive Content where
  | scalar (text : String)
  | sequence (items : List Nat)
  | mapping (entries : List (Nat × Nat))

structure Node where
  tag : Tag
  content : Content

instance : Inhabited Node :=
  ⟨⟨.null, .scalar ""⟩⟩

structure Graph where
  nodes : Array Node
  order : List Nat
  root : Nat

structure Composer where
  tokens : List Token
  nodes : Array Node := #[]
  ended : List Nat := []
  anchors : List (String × Nat) := []
  handles : List (String × String) := standardHandles

namespace Composer

abbrev Reading (α : Type) := StateT Composer (Except ReadFault) α

def maxDepth : Nat :=
  480

def malformed : Reading α :=
  throw .malformed

def peek : Reading (Option Token) := do
  match (← get).tokens with
  | [] => return none
  | .fault cause :: _ => throw cause
  | t :: _ => return some t

def advance : Reading Unit :=
  modify fun c => { c with tokens := c.tokens.drop 1 }

def atOneOf (ts : List Token) : Reading Bool := do
  return (← peek).all ts.contains

def accept (t : Token) : Reading Bool := do
  if (← peek) == some t then
    advance
    return true
  else return false

def begin (anchor : Option String) (node : Node) : Reading Nat :=
  modifyGet fun c =>
    let id := c.nodes.size
    let anchors := match anchor with
      | some name => (name, id) :: c.anchors
      | none => c.anchors
    (id, { c with nodes := c.nodes.push node, anchors := anchors })

def finish (id : Nat) (node : Node) : Reading Nat := do
  modify fun c => { c with nodes := c.nodes.setIfInBounds id node, ended := id :: c.ended }
  return id

def scalar (anchor : Option String) (tag : Tag) (text : String) : Reading Nat := do
  let node : Node := ⟨tag, .scalar text⟩
  finish (← begin anchor node) node

def empty : Reading Nat :=
  scalar none .null ""

/-! ### Properties -/

structure Properties where
  anchor : Option String := none
  tag : Option String := none

def tagName (written : WrittenTag) : Reading String := do
  match written.name? (← get).handles with
  | some name => return name
  | none => malformed

def properties : Reading Properties := do
  match ← peek with
  | some (.anchor name) =>
    advance
    match ← peek with
    | some (.tag written) =>
      advance
      return ⟨name, ← tagName written⟩
    | _ => return ⟨name, none⟩
  | some (.tag written) =>
    advance
    match ← peek with
    | some (.anchor name) =>
      advance
      return ⟨name, ← tagName written⟩
    | _ => return ⟨none, ← tagName written⟩
  | _ => return {}

def scalarTag (p : Properties) (text : String) (plain : Bool) : Tag :=
  match p.tag with
  | none => if plain then .ofPlain text else .text
  | some name => if name = "!" then .ofPlain text else .ofName name

def collectionTag (p : Properties) (standard : Tag) : Tag :=
  match p.tag with
  | none => standard
  | some name => if name = "!" then standard else .ofName name

/-! ### Nodes -/

def startsContent (block compact : Bool) : Option Token → Bool
  | some (.scalar ..) | some .openBracket | some .openBrace => true
  | some .blockSequence | some .blockMapping => block
  | some .dash => compact
  | _ => false

def separate (first : Bool) : Reading Unit := do
  if !first then
    if !(← accept .comma) then malformed

def isKnown (name : Option String) : Reading Bool := do
  let c ← get
  return name.any fun name => (c.anchors.lookup name).isSome

def sequence (p : Properties) (items : Reading (List Nat)) : Reading Nat := do
  let tag := collectionTag p .sequence
  let id ← begin p.anchor ⟨tag, .sequence []⟩
  finish id ⟨tag, .sequence (← items)⟩

def mapping (p : Properties) (entries : Reading (List (Nat × Nat))) : Reading Nat := do
  let tag := collectionTag p .mapping
  let id ← begin p.anchor ⟨tag, .mapping []⟩
  finish id ⟨tag, .mapping (← entries)⟩

mutual

/--
Reads a node within `depth` open collections. Outside flow collections it may be a block collection, and as a
part of a block mapping also a sequence whose dashes stand in the column of the keys. The fuel bounds the
tokens that are left.
-/
def node (depth : Nat) (block compact : Bool) : Nat → Reading Nat
  | 0 => malformed
  | fuel + 1 => do
    match ← peek with
    | some (.reference name) =>
      advance
      match (← get).anchors.lookup name with
      | some id => return id
      | none => malformed
    | _ =>
      let p ← properties
      let next ← peek
      let starts := startsContent block compact next
      if !starts && p.anchor.isNone && p.tag.isNone then malformed
      if ← isKnown p.anchor then malformed
      if starts then content depth p next fuel
      else scalar p.anchor (scalarTag p "" true) ""
termination_by structural fuel => fuel

def content (depth : Nat) (p : Properties) (next : Option Token) : Nat → Reading Nat
  | 0 => malformed
  | fuel + 1 => do
    match next with
    | some (.scalar text plain) =>
      advance
      scalar p.anchor (scalarTag p text plain) text
    | _ =>
      if depth ≥ maxDepth then throw (.breakdown .tooDeep)
      match next with
      | some .openBracket =>
        advance
        sequence p (flowItems (depth + 1) true [] fuel)
      | some .openBrace =>
        advance
        mapping p (flowEntries (depth + 1) true [] fuel)
      | some .blockSequence =>
        advance
        sequence p (blockItems (depth + 1) [] fuel)
      | some .blockMapping =>
        advance
        mapping p (blockEntries (depth + 1) [] fuel)
      | _ => sequence p (compactItems (depth + 1) [] fuel)
termination_by structural fuel => fuel

def blockItems (depth : Nat) (done : List Nat) : Nat → Reading (List Nat)
  | 0 => malformed
  | fuel + 1 => do
    if ← accept .dash then
      let item ← if ← atOneOf [.dash, .blockEnd] then empty else node depth true false fuel
      blockItems depth (item :: done) fuel
    else if ← accept .blockEnd then return done.reverse
    else malformed
termination_by structural fuel => fuel

def compactItems (depth : Nat) (done : List Nat) : Nat → Reading (List Nat)
  | 0 => malformed
  | fuel + 1 => do
    if ← accept .dash then
      let item ← if ← atOneOf [.dash, .key, .value, .blockEnd] then empty else node depth true false fuel
      compactItems depth (item :: done) fuel
    else return done.reverse
termination_by structural fuel => fuel

def blockEntries (depth : Nat) (done : List (Nat × Nat)) : Nat → Reading (List (Nat × Nat))
  | 0 => malformed
  | fuel + 1 => do
    if ← accept .key then
      let key ← blockPart depth fuel
      let value ← if ← accept .value then blockPart depth fuel else empty
      blockEntries depth ((key, value) :: done) fuel
    else if ← accept .blockEnd then return done.reverse
    else malformed
termination_by structural fuel => fuel

def blockPart (depth : Nat) : Nat → Reading Nat
  | 0 => malformed
  | fuel + 1 => do
    if ← atOneOf [.key, .value, .blockEnd] then empty else node depth true true fuel
termination_by structural fuel => fuel

def flowItems (depth : Nat) (first : Bool) (done : List Nat) : Nat → Reading (List Nat)
  | 0 => malformed
  | fuel + 1 => do
    if ← accept .closeBracket then return done.reverse
    separate first
    if ← accept .closeBracket then return done.reverse
    if ← accept .key then
      if depth ≥ maxDepth then throw (.breakdown .tooDeep)
      let item ← mapping {} do return [← flowEntry (depth + 1) .closeBracket fuel]
      flowItems depth false (item :: done) fuel
    else
      let item ← node depth false false fuel
      flowItems depth false (item :: done) fuel
termination_by structural fuel => fuel

def flowEntries (depth : Nat) (first : Bool) (done : List (Nat × Nat)) :
    Nat → Reading (List (Nat × Nat))
  | 0 => malformed
  | fuel + 1 => do
    if ← accept .closeBrace then return done.reverse
    separate first
    if ← accept .closeBrace then return done.reverse
    if ← accept .key then
      let entry ← flowEntry depth .closeBrace fuel
      flowEntries depth false (entry :: done) fuel
    else
      let key ← node depth false false fuel
      flowEntries depth false ((key, ← empty) :: done) fuel
termination_by structural fuel => fuel

def flowEntry (depth : Nat) (close : Token) : Nat → Reading (Nat × Nat)
  | 0 => malformed
  | fuel + 1 => do
    let key ← if ← atOneOf [.value, .comma, close] then empty else node depth false false fuel
    if ← accept .value then
      let value ← if ← atOneOf [.comma, close] then empty else node depth false false fuel
      return (key, value)
    else return (key, ← empty)
termination_by structural fuel => fuel

end

/-! ### Documents -/

def directives : Nat → Bool → List (String × String) → Reading (List (String × String))
  | 0, _, handles => return handles
  | fuel + 1, versioned, handles => do
    match ← peek with
    | some (.directive d) =>
      advance
      match d with
      | .version major =>
        if versioned || major ≠ 1 then malformed
        directives fuel true handles
      | .tagHandle name expansion =>
        if (handles.lookup name).isSome then malformed
        directives fuel versioned ((name, expansion) :: handles)
      | .other => directives fuel versioned handles
    | _ => return handles

def documentStart (fuel : Nat) : Reading Unit := do
  let handles ← directives fuel false []
  if ← accept .documentStart then modify fun c => { c with handles := handles ++ standardHandles }
  else malformed

def root (fuel : Nat) : Reading Nat := do
  match ← peek with
  | some (.directive _) | some .documentStart =>
    documentStart fuel
    match ← peek with
    | none | some (.directive _) | some .documentStart | some .documentEnd => empty
    | some _ => node 0 true false fuel
  | _ => node 0 true false fuel

def documentEnds : Nat → Reading Unit
  | 0 => return
  | fuel + 1 => do
    if ← accept .documentEnd then documentEnds fuel

def stream (fuel : Nat) : Reading (Option Nat) := do
  if (← peek).isNone then return none
  let id ← root fuel
  documentEnds fuel
  if (← peek).isSome then
    documentStart fuel
    malformed
  return some id

end Composer

def Graph.ofTokens (ts : List Token) : Except ReadFault (Option Graph) := do
  let (root, c) ← (Composer.stream (6 * ts.length + 6)).run { tokens := ts }
  return root.map fun root => ⟨c.nodes, c.ended.reverse, root⟩

end RowSweep.Yaml
