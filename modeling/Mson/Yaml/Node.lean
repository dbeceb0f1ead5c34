import Mson.Yaml.Tag
import Mson.Yaml.TokenStream

/-!
# Nodes of a YAML document

A document is a graph of scalars, sequences and mappings: an alias leads to the node that carries
its anchor, which may be one that the alias stands in. Nodes are therefore kept in one table, and a
node names the nodes in it by their places there. `Document.read?` composes the nodes of a text; a
node whose tag is not given has the tag of its content.
-/
namespace Mson.Yaml

/-- The place of a node in its document. -/
abbrev NodeId := Nat

inductive Node where
  | scalar (tag : Tag) (text : String)
  | sequence (tag : Tag) (items : List NodeId)
  | mapping (tag : Tag) (entries : List (NodeId × NodeId))
  deriving DecidableEq, Repr

namespace Node

/-- The scalar without text. -/
def empty : Node := .scalar .null ""

def tag : Node → Tag
  | .scalar tag _ | .sequence tag _ | .mapping tag _ => tag

def withTag (tag : Tag) : Node → Node
  | .scalar _ text => .scalar tag text
  | .sequence _ items => .sequence tag items
  | .mapping _ entries => .mapping tag entries

def isMapping : Node → Bool
  | .mapping .. => true
  | _ => false

/-- The entries of a mapping; other nodes have none. -/
def entries : Node → List (NodeId × NodeId)
  | .mapping _ entries => entries
  | _ => []

end Node

structure Document where
  nodes : Array Node
  root : NodeId

namespace Document

def node (document : Document) (id : NodeId) : Node := document.nodes.getD id .empty

/-- How many entries the mappings of a document have. -/
def entryCount (document : Document) : Nat :=
  document.nodes.foldl (fun count node => count + node.entries.length) 0

end Document

/-- The tokens still to come and the fault after them, the nodes composed so far, those of them that
carry anchors, and what the handles of tags stand for. -/
structure Composer where
  tokens : List Token
  fault : Option Fault
  nodes : Array Node
  anchors : List (String × NodeId)
  handles : List (String × String)

namespace Composer

abbrev Compose := StateT Composer (Except Fault)

def standardHandles : List (String × String) := [("!", "!"), ("!!", "tag:yaml.org,2002:")]

/-- The next token; the fault of the text comes to light where its tokens end. -/
def peek : Compose Token := do
  match (← get).tokens, (← get).fault with
  | token :: _, _ => return token
  | [], some fault => throw fault
  | [], none => return .streamEnd

def next : Compose Token := do
  let token ← peek
  modify fun state => { state with tokens := state.tokens.tail }
  return token

def skip : Compose Unit := do
  let _ ← next

/-- Passes over a token if it comes next. -/
def accept (token : Token) : Compose Bool := do
  if (← peek) = token then skip; return true
  else return false

/-! ## Adding nodes -/

def add (node : Node) : Compose NodeId := do
  let id := (← get).nodes.size
  modify fun state => { state with nodes := state.nodes.push node }
  return id

/-- Adds a node that carries an anchor, if one is given; what is in the node may refer to it. -/
def addAnchored (anchor : Option String) (node : Node) : Compose NodeId := do
  match anchor with
  | none => add node
  | some name =>
      if ((← get).anchors.lookup name).isSome then throw .duplicateAnchor
      let id ← add node
      modify fun state => { state with anchors := (name, id) :: state.anchors }
      return id

def replace (id : NodeId) (node : Node) : Compose Unit :=
  modify fun state => { state with nodes := state.nodes.setIfInBounds id node }

/-- A scalar that is not written. -/
def missing : Compose NodeId := add .empty

/-! ## Properties -/

/-- What a node may carry before its content. -/
structure Properties where
  anchor : Option String
  tag : Option String

def fullTag (handle : Option String) (suffix : String) : Compose String := do
  match handle with
  | none => return suffix
  | some name =>
      match (← get).handles.lookup name with
      | some stem => return stem ++ suffix
      | none => throw .undefinedHandle

def readAnchor? : Compose (Option String) := do
  match ← peek with
  | .anchor name => skip; return some name
  | _ => return none

def readTag? : Compose (Option String) := do
  match ← peek with
  | .tag handle suffix => skip; return some (← fullTag handle suffix)
  | _ => return none

/-- Reads an anchor and a tag, in either order. -/
def readProperties : Compose Properties := do
  match ← readAnchor? with
  | some anchor => return ⟨some anchor, ← readTag?⟩
  | none =>
      match ← readTag? with
      | some tag => return ⟨← readAnchor?, some tag⟩
      | none => return ⟨none, none⟩

/-- The tag that is given. A single exclamation mark leaves the tag to be found from the content. -/
def Properties.ownTag? (properties : Properties) : Option Tag :=
  if properties.tag = some "!" then none else properties.tag.map Tag.ofName

/-- The tag of a scalar. It is found from the text of a plain scalar, and of any scalar that is
marked for it. -/
def Properties.scalarTag (properties : Properties) (plain : Bool) (text : String) : Tag :=
  match properties.ownTag? with
  | some tag => tag
  | none => if plain || properties.tag.isSome then Tag.ofText text else .string

def addScalar (properties : Properties) (plain : Bool) (text : String) : Compose NodeId :=
  addAnchored properties.anchor (.scalar (properties.scalarTag plain text) text)

/-- Adds a sequence whose items are read after it has become known. -/
def addSequence (properties : Properties) (items : Compose (List NodeId)) : Compose NodeId := do
  let tag := properties.ownTag?.getD .sequence
  let id ← addAnchored properties.anchor (.sequence tag [])
  replace id (.sequence tag (← items))
  return id

/-- Adds a mapping whose entries are read after it has become known. -/
def addMapping (properties : Properties) (entries : Compose (List (NodeId × NodeId))) :
    Compose NodeId := do
  let tag := properties.ownTag?.getD .mapping
  let id ← addAnchored properties.anchor (.mapping tag [])
  replace id (.mapping tag (← entries))
  return id

/-! ## Nodes -/

/-- Which nodes are allowed where a node is read. -/
structure Place where
  /-- Block collections may stand here. -/
  block : Bool
  /-- A sequence may stand here without being indented. -/
  indentless : Bool

def Place.flow : Place := ⟨false, false⟩

def Place.inBlock : Place := ⟨true, false⟩

def Place.inBlockMapping : Place := ⟨true, true⟩

mutual

/-- Reads a node. -/
def node (fuel : Nat) (place : Place) : Compose NodeId := do
  match fuel with
  | 0 => throw .nodeExpected
  | fuel + 1 =>
      match ← peek with
      | .alias name =>
          skip
          match (← get).anchors.lookup name with
          | some id => return id
          | none => throw .undefinedAlias
      | _ =>
          let properties ← readProperties
          match ← peek with
          | .blockEntry =>
              if place.indentless then addSequence properties (indentlessItems fuel)
              else emptyNode properties
          | .scalar text plain => do
              skip
              addScalar properties plain text
          | .flowSequenceStart => do
              skip
              addSequence properties (flowItems fuel true)
          | .flowMappingStart => do
              skip
              addMapping properties (flowEntries fuel true)
          | .blockSequenceStart =>
              if place.block then do
                skip
                addSequence properties (blockItems fuel)
              else emptyNode properties
          | .blockMappingStart =>
              if place.block then do
                skip
                addMapping properties (blockEntries fuel)
              else emptyNode properties
          | _ => emptyNode properties

/-- A node without content is an empty scalar if it has an anchor or a tag. -/
def emptyNode (properties : Properties) : Compose NodeId := do
  if properties.anchor.isNone && properties.tag.isNone then throw .nodeExpected
  addScalar properties true ""

/-- Reads a node, or an empty one if one of the given tokens comes next. -/
def nodeUnless (fuel : Nat) (place : Place) (ends : List Token) : Compose NodeId := do
  match fuel with
  | 0 => throw .nodeExpected
  | fuel + 1 => if ends.contains (← peek) then missing else node fuel place

/-- The entries of an indented sequence up to its end. -/
def blockItems (fuel : Nat) : Compose (List NodeId) := do
  match fuel with
  | 0 => throw .blockEndExpected
  | fuel + 1 =>
      match ← next with
      | .blockEntry =>
          let item ← nodeUnless fuel .inBlock [.blockEntry, .blockEnd]
          return item :: (← blockItems fuel)
      | .blockEnd => return []
      | _ => throw .blockEndExpected

/-- The entries of a sequence that is not indented. -/
def indentlessItems (fuel : Nat) : Compose (List NodeId) := do
  match fuel with
  | 0 => throw .blockEndExpected
  | fuel + 1 =>
      if ← accept .blockEntry then
        let item ← nodeUnless fuel .inBlock [.blockEntry, .key, .value, .blockEnd]
        return item :: (← indentlessItems fuel)
      else return []

/-- The entries of a block mapping up to its end. -/
def blockEntries (fuel : Nat) : Compose (List (NodeId × NodeId)) := do
  match fuel with
  | 0 => throw .blockEndExpected
  | fuel + 1 =>
      match ← next with
      | .key =>
          let ends : List Token := [.key, .value, .blockEnd]
          let key ← nodeUnless fuel .inBlockMapping ends
          let value ←
            if ← accept .value then nodeUnless fuel .inBlockMapping ends else missing
          return (key, value) :: (← blockEntries fuel)
      | .blockEnd => return []
      | _ => throw .blockEndExpected

/-- The items of a sequence in brackets up to the closing one. A key makes an item a mapping. -/
def flowItems (fuel : Nat) (first : Bool) : Compose (List NodeId) := do
  match fuel with
  | 0 => throw .flowEndExpected
  | fuel + 1 =>
      if ← accept .flowSequenceEnd then return []
      unless first do
        unless ← accept .flowEntry do throw .flowEndExpected
      if ← accept .flowSequenceEnd then return []
      let item ←
        if ← accept .key then do
          let key ← nodeUnless fuel .flow [.value, .flowEntry, .flowSequenceEnd]
          let value ←
            if ← accept .value then nodeUnless fuel .flow [.flowEntry, .flowSequenceEnd]
            else missing
          add (.mapping .mapping [(key, value)])
        else node fuel .flow
      return item :: (← flowItems fuel false)

/-- The entries of a mapping in braces up to the closing one. -/
def flowEntries (fuel : Nat) (first : Bool) : Compose (List (NodeId × NodeId)) := do
  match fuel with
  | 0 => throw .flowEndExpected
  | fuel + 1 =>
      if ← accept .flowMappingEnd then return []
      unless first do
        unless ← accept .flowEntry do throw .flowEndExpected
      if ← accept .flowMappingEnd then return []
      let entry ←
        if ← accept .key then do
          let key ← nodeUnless fuel .flow [.value, .flowEntry, .flowMappingEnd]
          let value ←
            if ← accept .value then nodeUnless fuel .flow [.flowEntry, .flowMappingEnd]
            else missing
          pure (key, value)
        else do
          let key ← node fuel .flow
          pure (key, ← missing)
      return entry :: (← flowEntries fuel false)

end

/-- Reads the directives in front of a document. -/
def directives (fuel : Nat) (versionGiven : Bool) (handles : List (String × String)) :
    Compose (List (String × String)) := do
  match fuel with
  | 0 => return handles
  | fuel + 1 =>
      match ← peek with
      | .version major =>
          skip
          if versionGiven then throw .duplicateDirective
          if major ≠ 1 then throw .unsupportedVersion
          directives fuel true handles
      | .handle name stem =>
          skip
          if (handles.lookup name).isSome then throw .duplicateDirective
          directives fuel versionGiven ((name, stem) :: handles)
      | .otherDirective =>
          skip
          directives fuel versionGiven handles
      | _ => return handles

def skipDocumentEnds (fuel : Nat) : Compose Unit := do
  match fuel with
  | 0 => return
  | fuel + 1 => if ← accept .documentEnd then skipDocumentEnds fuel

/-- The start of an explicit document, with its directives. -/
def explicitStart (fuel : Nat) : Compose Unit := do
  let handles ← directives fuel false []
  unless ← accept .documentStart do throw .documentStartExpected
  modify fun state => { state with handles := handles ++ standardHandles }

/-- Checks that nothing but ends of documents follows the first document. -/
def finish (fuel : Nat) : Compose Unit := do
  skipDocumentEnds fuel
  unless (← peek) = .streamEnd do throw .severalDocuments

/-- The document of the stream, unless the stream is empty. -/
def document? (fuel : Nat) : Compose (Option NodeId) := do
  match ← peek with
  | .streamEnd => return none
  | .version _ | .handle .. | .otherDirective | .documentStart => do
      explicitStart fuel
      let root ← match ← peek with
        | .version _ | .handle .. | .otherDirective | .documentStart | .documentEnd
        | .streamEnd => missing
        | _ => node fuel .inBlock
      finish fuel
      return some root
  | _ => do
      let root ← node fuel .inBlock
      finish fuel
      return some root

end Composer

/-- The document in a text: none if the text is empty. -/
def Document.read? (text : List Char) : Except Fault (Option Document) := do
  let stream := TokenStream.ofText text
  let fuel := 2 * stream.tokens.length + 4
  let (root, state) ← (Composer.document? fuel).run
    ⟨stream.tokens, stream.fault, #[], [], Composer.standardHandles⟩
  return root.map fun root => ⟨state.nodes, root⟩

end Mson.Yaml
