import Mson.Refract.Parser

/-!
# Declared types

The symbol table of an API description holds its data structures by name, in the order in which the
names are first declared; of declarations of one name the last counts. A declaration that is no
element is left out and reported, so what refers to it refers to an unknown name.
-/
namespace Mson

/-- The element name of the nodes that declare a data structure. -/
def dataStructureName : String := "dataStructure"

/-- The refract node inside a data structure node: its content, or the first item of its content. -/
def definition? (node : Mapping Json) : Option (Mapping Json) :=
  match Mapping.get? node "content" with
  | some (.array (.object entries :: _)) => some entries
  | some (.object entries) => some entries
  | _ => none

/-- Whether a node declares a data structure. -/
def declaresDataStructure (node : Mapping Json) : Bool :=
  match Mapping.get? node "element" with
  | some (.string name) => name = dataStructureName
  | _ => false

mutual

/-- The data structure nodes of a document in document order. The search goes down through lists of
content and does not enter the data structures it finds. -/
def dataStructures : Json → List (Mapping Json)
  | .object entries =>
      if declaresDataStructure entries then [entries] else dataStructuresInContent entries
  | .array items => dataStructuresInItems items
  | _ => []

def dataStructuresInItems : List Json → List (Mapping Json)
  | [] => []
  | item :: items => dataStructures item ++ dataStructuresInItems items

def dataStructuresInContent : List (String × Json) → List (Mapping Json)
  | [] => []
  | (name, value) :: entries =>
      if name = "content" then
        match value with
        | .array items => dataStructuresInItems items
        | _ => []
      else dataStructuresInContent entries

end

/-- The name that a definition carries, wrapped or not; used to report it. -/
def declaredName (definition : Mapping Json) : String :=
  let id := (Mapping.get? definition "meta").bind fun data => data.field? "id"
  let id := match id with
    | some (.object entries) => Mapping.get? entries "content"
    | other => other
  match id with
  | some (.string name) => if name = "" then "<unnamed>" else name
  | _ => "<unnamed>"

/-- A declaration that was left out, and why. -/
structure SkippedDeclaration where
  name : String
  reason : Refract.FormatError

/-- The name an element is declared under: a string that is not empty. -/
def Element.id? (element : Element) : Option String :=
  match Mapping.get? element.metadata "id" with
  | some (.string name) => if name = "" then none else some name
  | _ => none

/-- The symbol table so far, and the declarations left out so far. -/
structure Declarations where
  types : SymbolTable
  skipped : List SkippedDeclaration

def Declarations.add (declared : Declarations) (node : Mapping Json) : Declarations :=
  match definition? node with
  | none => declared
  | some definition =>
      match Refract.parse (.object definition) with
      | .error reason =>
          { declared with skipped := declared.skipped ++ [⟨declaredName definition, reason⟩] }
      | .ok element =>
          match element.id? with
          | none => declared
          | some name => { declared with types := Mapping.put declared.types name element }

/-- Every declaration in a document. -/
def declarations (document : Json) : Declarations :=
  (dataStructures document).foldl Declarations.add ⟨[], []⟩

end Mson
