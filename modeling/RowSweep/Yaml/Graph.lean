import RowSweep.Yaml.Node
import RowSweep.Yaml.Value

/-!
This module contains the check that every node of a graph stands for data, and the taking over of entries
from one mapping into another. Collections are opened level by level: a fault near the root counts before
one that is deeper, and each node is looked at once.
-/

namespace RowSweep.Yaml

namespace Graph

def tag (nodes : Array Node) (id : Nat) : Tag :=
  nodes[id]!.tag

def entries? (nodes : Array Node) (id : Nat) : Option (List (Nat × Nat)) :=
  match nodes[id]!.content with
  | .mapping entries => some entries
  | _ => none

/--
The text of a scalar. A mapping with a main value has the text of that. The fuel bounds the steps of such a
chain.
-/
def text (nodes : Array Node) : Nat → Nat → Except ReadFault String
  | 0, _ => .error (.breakdown .tooDeep)
  | fuel + 1, id =>
    match nodes[id]!.content with
    | .scalar text => .ok text
    | .sequence _ => .error .malformed
    | .mapping entries =>
      match entries.find? fun (key, _) => tag nodes key = .mainValue with
      | some (_, value) => text nodes fuel value
      | none => .error .malformed

def leaf (nodes : Array Node) (id : Nat) : Except ReadFault Document := do
  let found ← text nodes (nodes.size + 1) id
  if tag nodes id = .instant && (entries? nodes id).isSome then
    throw (.breakdown .collectionAsDate)
  Value.ofText (tag nodes id) found

/--
The nodes after all merge keys of a mapping have been replaced by the entries they bring, which come before
its own. Of several mappings under one key the first one comes last. A key for a main value is text. The
fuel bounds the mappings on the way.
-/
def merge : Nat → Nat → Array Node → Except ReadFault (Array Node)
  | 0, _, nodes => .ok nodes
  | fuel + 1, id, nodes =>
    match nodes[id]! with
    | ⟨kind, .mapping entries⟩ => do
      let (merges, own) := entries.partition fun (key, _) => tag nodes key = .merge
      let nodes := own.foldl (fun nodes (key, _) =>
        if tag nodes key = .mainValue then nodes.modify key ({ · with tag := .text }) else nodes) nodes
      let nodes := nodes.setIfInBounds id ⟨kind, .mapping own⟩
      let taken (nodes : Array Node) (source : Nat) :
          Except ReadFault (Array Node × List (Nat × Nat)) := do
        if (entries? nodes source).isNone then throw .malformed
        let nodes ← merge fuel source nodes
        return (nodes, (entries? nodes source).getD [])
      let (nodes, found) ← merges.foldlM (fun (nodes, found) (_, value) =>
        match nodes[value]!.content with
        | .scalar _ => throw .malformed
        | .mapping _ => do
          let (nodes, more) ← taken nodes value
          return (nodes, found ++ more)
        | .sequence items => do
          let (nodes, more) ← items.foldlM (fun (nodes, more) item => do
            let (nodes, first) ← taken nodes item
            return (nodes, first ++ more)) (nodes, [])
          return (nodes, found ++ more)) (nodes, [])
      return nodes.setIfInBounds id ⟨kind, .mapping (found ++ own)⟩
    | _ => .ok nodes

structure Check where
  nodes : Array Node
  seen : Array Bool
  next : List Nat := []

namespace Check

def visit (c : Check) (id : Nat) : Except ReadFault Check :=
  if c.seen[id]! then .ok c
  else
    let seen := c.seen.setIfInBounds id true
    if (tag c.nodes id).isCollection then .ok { c with seen := seen, next := id :: c.next }
    else do
      let _ ← leaf c.nodes id
      return { c with seen := seen }

def openMapping (c : Check) (id : Nat) : Except ReadFault Check := do
  if (entries? c.nodes id).isNone then throw .malformed
  let nodes ← merge (c.nodes.size + 1) id c.nodes
  ((entries? nodes id).getD []).foldlM (fun c (key, value) => do
    let c ← c.visit key
    if (tag c.nodes key).isCollection then throw .malformed
    c.visit value) { c with nodes := nodes }

def openEntries (c : Check) (id : Nat) : Except ReadFault Check :=
  match c.nodes[id]!.content with
  | .sequence items =>
    items.foldlM (fun c item =>
      match entries? c.nodes item with
      | some [(key, value)] => do (← c.visit key).visit value
      | _ => throw .malformed) c
  | _ => .error .malformed

def openSequence (c : Check) (id : Nat) : Except ReadFault Check :=
  match c.nodes[id]!.content with
  | .sequence items => items.foldlM visit c
  | _ => .error .malformed

def openCollection (c : Check) (id : Nat) : Except ReadFault Check :=
  match tag c.nodes id with
  | .mapping | .set => c.openMapping id
  | .entries => c.openEntries id
  | _ => c.openSequence id

def levels : Nat → Check → Except ReadFault Check
  | 0, c => .ok c
  | fuel + 1, c =>
    if c.next.isEmpty then .ok c
    else do levels fuel (← c.next.reverse.foldlM openCollection { c with next := [] })

end Check

def checked (g : Graph) : Except ReadFault (Array Node) := do
  let c : Check := { nodes := g.nodes, seen := .replicate g.nodes.size false }
  return (← Check.levels (g.nodes.size + 1) (← c.visit g.root)).nodes

def abyss : Nat → Document
  | 0 => .sequence []
  | depth + 1 => .sequence [abyss depth]

def unreached (node : Node) : Document :=
  match node.content with
  | .scalar _ => .null
  | .sequence _ => abyss 64
  | .mapping _ => .mapping []

def textEntries (documents : Array Document) (entries : List (Nat × Nat)) : List (String × Document) :=
  entries.foldl (fun done (key, value) =>
    match documents[key]! with
    | .text name => Document.insertEntry name documents[value]! done
    | _ => done) []

def document (nodes : Array Node) (documents : Array Document) (id : Nat) : Document :=
  match tag nodes id, nodes[id]!.content with
  | .sequence, .sequence items => .sequence (items.map (documents[·]!))
  | .mapping, .mapping entries => .mapping (textEntries documents entries)
  | .entries, .sequence items =>
    .sequence (items.map fun item =>
      .sequence (((entries? nodes item).getD []).flatMap fun (key, value) =>
        [documents[key]!, documents[value]!]))
  | .set, _ => .foreign ""
  | _, _ =>
    match leaf nodes id with
    | .ok document => document
    | .error _ => .null

def pass (nodes : Array Node) (order : List Nat) (documents : Array Document) : Array Document :=
  order.foldl (fun documents id => documents.setIfInBounds id (document nodes documents id)) documents

def parts (nodes : Array Node) (id : Nat) : List Nat :=
  match nodes[id]!.content with
  | .scalar _ => []
  | .sequence items =>
    items ++ items.flatMap fun item =>
      ((entries? nodes item).getD []).flatMap fun (key, value) => [key, value]
  | .mapping entries => entries.flatMap fun (key, value) => [key, value]

def isOrdered (nodes : Array Node) (order : List Nat) : Bool :=
  go (.replicate nodes.size false) order
where
  go (ended : Array Bool) : List Nat → Bool
    | [] => true
    | id :: rest => (parts nodes id).all (ended[·]!) && go (ended.setIfInBounds id true) rest

def maxTurns : Nat :=
  8

def toDocument (g : Graph) : Except ReadFault Document := do
  let nodes ← g.checked
  let turns := if isOrdered nodes g.order then 1 else maxTurns
  let documents := turns.fold (fun _ _ documents => pass nodes g.order documents) (nodes.map unreached)
  return documents[g.root]!

end Graph

end RowSweep.Yaml
