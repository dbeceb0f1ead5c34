import Mson.Yaml.Node

/-!
# Merging mappings

A mapping takes over the entries of the mappings that its merge keys lead to. They come before its
own, where its own count more. `flatten` puts them there, in the mappings taken over first; merge
keys are gone then, and the key of a principal value has become a string.

A mapping may be merged into itself, at whatever depth: every merge key is taken out before the
mapping it leads to is flattened, so each of them is followed once.
-/
namespace Mson.Yaml

abbrev Entries := List (NodeId × NodeId)

/-- A change of the nodes of a document. -/
abbrev Merging := StateT (Array Node) (Except Fault)

namespace Merging

def nodeAt (id : NodeId) : Merging Node := return (← get).getD id .empty

def setEntries (id : NodeId) (entries : Entries) : Merging Unit :=
  modify fun nodes => nodes.modify id fun node => .mapping node.tag entries

/-- Takes out the first entry of a mapping under a merge key, and gives the node it leads to. -/
def takeMerge? (id : NodeId) : Merging (Option NodeId) := do
  let nodes ← get
  match (← nodeAt id).entries.span fun (key, _) => (nodes.getD key .empty).tag ≠ .merge with
  | (before, (_, source) :: after) =>
      setEntries id (before ++ after)
      return some source
  | (_, []) => return none

/-- Makes strings of the keys of principal values. -/
def nameKeys (entries : Entries) : Merging Unit :=
  modify fun nodes => entries.foldl (fun nodes (key, _) =>
    nodes.modify key fun node => if node.tag = .value then node.withTag .string else node) nodes

/-- Flattens a mapping, where `taken` gives the entries that it takes over, and gives all it has. -/
def flattenBy (taken : NodeId → Merging Entries) (id : NodeId) : Merging Entries := do
  let first ← taken id
  let entries := first ++ (← nodeAt id).entries
  setEntries id entries
  nameKeys entries
  return entries

/-- The entries of a mapping that is taken over. -/
def mappingEntries (taken : NodeId → Merging Entries) (id : NodeId) : Merging Entries := do
  if (← nodeAt id).isMapping then flattenBy taken id else throw .notMergeable

/-- The entries that a merge key leads to: those of a mapping, or of several, of which the first
counts most, so it comes last. -/
def sourceEntries (taken : NodeId → Merging Entries) (source : NodeId) : Merging Entries := do
  match ← nodeAt source with
  | .sequence _ items => return (← items.mapM (mappingEntries taken)).reverse.flatten
  | _ => mappingEntries taken source

/-- Takes the merge keys out of a mapping and gives the entries they lead to. -/
def takenEntries (fuel : Nat) (id : NodeId) : Merging Entries := do
  match fuel with
  | 0 => return []
  | fuel + 1 =>
      match ← takeMerge? id with
      | none => return []
      | some source =>
          let first ← sourceEntries (takenEntries fuel) source
          return first ++ (← takenEntries fuel id)

/-- Flattens a mapping of a document with at most `mergeCount` merge keys, and gives its entries. -/
def flatten (mergeCount : Nat) (id : NodeId) : Merging Entries :=
  flattenBy (takenEntries (mergeCount + 1)) id

end Merging

end Mson.Yaml
