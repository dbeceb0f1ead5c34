import Mson.Yaml.Atom
import Mson.Yaml.Merge

/-!
# Values of nodes

The values that the nodes of a document denote. A node is met before it is opened: a scalar has its
value as soon as it is met, a collection has none of its content until it is opened, and all
collections met in one round are opened in the next. This is what lets a collection contain itself.
A node met again has the value that it had before.

`read?` opens all that can be reached from the root of a document, or gives the first fault.
-/
namespace Mson.Yaml

inductive Value where
  | atom (value : Atom)
  | list (items : List NodeId)
  /-- Entries in order, of which several may have one key. -/
  | entryList (entries : List (NodeId × NodeId))
  | set (members : List Atom)
  | mapping (entries : List (Atom × NodeId))
  deriving Repr

def Value.isCollection : Value → Bool
  | .atom _ => false
  | _ => true

/-- The empty collection of a tag; none if the tag is that of a scalar. -/
def Tag.emptyCollection? : Tag → Option Value
  | .sequence => some (.list [])
  | .orderedMapping | .pairs => some (.entryList [])
  | .set => some (.set [])
  | .mapping => some (.mapping [])
  | _ => none

/-! ## Scalars -/

/-- The text of a scalar, or of the principal value of a mapping, which may be a mapping in turn. A
chain of more mappings than there are nodes has no end. -/
def textAt (nodes : Array Node) (fuel : Nat) (id : NodeId) : Except Fault String :=
  match fuel with
  | 0 => .error .endlessPrincipal
  | fuel + 1 =>
      match nodes.getD id .empty with
      | .scalar _ text => .ok text
      | .sequence .. => .error .wrongNodeShape
      | .mapping _ entries =>
          match entries.find? fun (key, _) => (nodes.getD key .empty).tag = .value with
          | some (_, value) => textAt nodes fuel value
          | none => .error .wrongNodeShape

/-- The value of a node whose tag is that of a scalar. -/
def atomAt (nodes : Array Node) (id : NodeId) : Except Fault Atom := do
  let node := nodes.getD id .empty
  let text := textAt nodes (nodes.size + 1) id
  match node.tag with
  | .null => let _ ← text; return .null
  | .bool => return .bool (← Atom.readBool (← text))
  | .int => return .int (← Atom.readInt (← text))
  | .float => Atom.readFloat id (← text)
  | .binary => return .binary (← Atom.readBinary (← text))
  | .timestamp =>
      let text ← text
      if node.isMapping then throw .timestampInMapping else Atom.readTimestamp text
  | .string => return .string (← text)
  | _ => throw .unknownTag

/-! ## Opening -/

/-- A document that is being opened. -/
structure Progress where
  nodes : Array Node
  /-- The values of the nodes met so far. -/
  values : Array (Option Value)
  /-- The collections met in this round, the last one first. -/
  waiting : List NodeId

abbrev Opening := StateT Progress (Except Fault)

namespace Opening

def setValue (id : NodeId) (value : Value) : Opening Unit :=
  modify fun state => { state with values := state.values.setIfInBounds id (some value) }

/-- Meets a node. -/
def meet (id : NodeId) : Opening Value := do
  let state ← get
  match state.values.getD id none with
  | some value => return value
  | none =>
      match (state.nodes.getD id .empty).tag.emptyCollection? with
      | some value =>
          setValue id value
          modify fun state => { state with waiting := id :: state.waiting }
          return value
      | none =>
          let value := Value.atom (← liftM (atomAt state.nodes id))
          setValue id value
          return value

/-- Meets the key of a mapping. -/
def meetKey (id : NodeId) : Opening Atom := do
  match ← meet id with
  | .atom atom => return atom
  | _ => throw .unusableKey

/-- Meets the nodes of a mapping that has been flattened. -/
def meetEntries (mergeCount : Nat) (id : NodeId) : Opening (List (Atom × NodeId)) := do
  let (entries, nodes) ← liftM ((Merging.flatten mergeCount id).run (← get).nodes)
  modify fun state => { state with nodes }
  entries.mapM fun (key, value) => do
    let atom ← meetKey key
    let _ ← meet value
    return (atom, value)

/-- Meets the nodes of one entry of a list of entries, which is a mapping by itself. -/
def meetEntry (id : NodeId) : Opening (NodeId × NodeId) := do
  match (← get).nodes.getD id .empty with
  | .mapping _ [(key, value)] =>
      let _ ← meet key
      let _ ← meet value
      return (key, value)
  | _ => throw .wrongNodeShape

/-- Of the entries of one key the last counts, at the place of the first. -/
def lastOfEach (entries : List (Atom × NodeId)) : List (Atom × NodeId) :=
  entries.foldl (fun kept (key, value) =>
    if kept.any fun entry => entry.1.sameKey key then
      kept.map fun entry => if entry.1.sameKey key then (entry.1, value) else entry
    else kept ++ [(key, value)]) []

/-- The content of a collection, whose nodes are met. -/
def content (mergeCount : Nat) (id : NodeId) : Opening Value := do
  let node := (← get).nodes.getD id .empty
  match node.tag, node with
  | .sequence, .sequence _ items =>
      items.forM fun item => do let _ ← meet item
      return .list items
  | .orderedMapping, .sequence _ items | .pairs, .sequence _ items =>
      return .entryList (← items.mapM meetEntry)
  | .set, .mapping .. => return .set ((lastOfEach (← meetEntries mergeCount id)).map Prod.fst)
  | .mapping, .mapping .. => return .mapping (lastOfEach (← meetEntries mergeCount id))
  | _, _ => throw .wrongNodeShape

/-- Opens round after round. Every round but the last meets a node for the first time. -/
def openWaiting (mergeCount : Nat) (fuel : Nat) : Opening Unit := do
  match fuel with
  | 0 => return
  | fuel + 1 =>
      let waiting := (← get).waiting.reverse
      unless waiting.isEmpty do
        modify fun state => { state with waiting := [] }
        waiting.forM fun id => do setValue id (← content mergeCount id)
        openWaiting mergeCount fuel

end Opening

/-! ## Whole documents -/

/-- The values of the nodes of a document. -/
structure Contents where
  root : NodeId
  values : Array (Option Value)

/-- The value of a node; one that cannot be reached from the root counts as null. -/
def Contents.value (contents : Contents) (id : NodeId) : Value :=
  (contents.values.getD id none).getD (.atom .null)

def Document.contents (document : Document) : Except Fault Contents := do
  let size := document.nodes.size
  let opening : Opening Unit := do
    let _ ← Opening.meet document.root
    Opening.openWaiting document.entryCount (size + 1)
  let (_, state) ← opening.run ⟨document.nodes, Array.replicate size none, []⟩
  return ⟨document.root, state.values⟩

/-- The values in a text; none if the text is empty. -/
def read? (text : List Char) : Except Fault (Option Contents) := do
  match ← Document.read? text with
  | none => return none
  | some document => some <$> document.contents

end Mson.Yaml
