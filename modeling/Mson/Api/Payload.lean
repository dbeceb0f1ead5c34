import Mson.Api.Description
import Mson.SymbolTable
import Mson.Text.Blank

/-!
# Payloads

The requests and responses of an API description, found under its groups, resources, actions and
examples in this order. A payload is known by its label: the names of its group, its resource and
the method of its action, its direction, and its number among the payloads of that direction in
its example.
-/
namespace Mson

inductive Direction where
  | request
  | response
  deriving DecidableEq, Repr

def Direction.name : Direction → String
  | .request => "request"
  | .response => "response"

/-- Where an example lists its payloads of a direction. -/
def Direction.field : Direction → String
  | .request => "requests"
  | .response => "responses"

structure Payload where
  label : String
  direction : Direction
  /-- The definition that the payload's data structure wraps. -/
  dataStructure : Option (Mapping Json)
  /-- Schema and body text that the description itself gives. -/
  providedSchema : Option String
  providedBody : Option String

namespace Payload

/-- The objects in a list; other values hold none. -/
def objectsIn : Option Json → List (Mapping Json)
  | some (.array items) => items.filterMap Json.entries?
  | _ => []

/-- A text, unless it is blank. -/
def nonBlankText? : Option Json → Option String
  | some (.string text) => if Text.isBlankText text then none else some text
  | _ => none

def labelSeparator : String := " / "

/-- The parts that are texts, without blanks around them. -/
def labelOf (parts : List (Option Json)) : String :=
  let named := parts.filterMap fun part => (nonBlankText? part).map Text.trim
  if named.isEmpty then "(unnamed)" else labelSeparator.intercalate named

/-- The name of a resource, or its template if the name is empty. -/
def resourceName (resource : Mapping Json) : Option Json :=
  match Mapping.get? resource "name" with
  | some name => if name.isEmptyValue then Mapping.get? resource "uriTemplate" else some name
  | none => Mapping.get? resource "uriTemplate"

/-- The definition in the last data structure of a payload. -/
def dataStructureOf (item : Mapping Json) : Option (Mapping Json) :=
  match ((objectsIn (Mapping.get? item "content")).filter declaresDataStructure).getLast? with
  | some node => definition? node
  | none => none

def ofItem (item : Mapping Json) (label : String) (direction : Direction) : Payload where
  label := label
  direction := direction
  dataStructure := dataStructureOf item
  providedSchema := nonBlankText? (Mapping.get? item "schema")
  providedBody := nonBlankText? (Mapping.get? item "body")

/-- The payloads of one direction in an example, numbered from one. -/
def ofExample (actionLabel : String) (example_ : Mapping Json) (direction : Direction) :
    List Payload :=
  (objectsIn (Mapping.get? example_ direction.field)).zipIdx 1 |>.map fun (item, number) =>
    ofItem item (actionLabel ++ labelSeparator ++ direction.name ++ s!" {number}") direction

def ofAction (group resource action : Mapping Json) : List Payload :=
  let label := labelOf
    [Mapping.get? group "name", resourceName resource, Mapping.get? action "method"]
  (objectsIn (Mapping.get? action "examples")).flatMap fun example_ =>
    ofExample label example_ .request ++ ofExample label example_ .response

/-- Every payload of an API description. -/
def discover (description : Description) : List Payload :=
  (objectsIn (Mapping.get? description "resourceGroups")).flatMap fun group =>
    (objectsIn (Mapping.get? group "resources")).flatMap fun resource =>
      (objectsIn (Mapping.get? resource "actions")).flatMap fun action =>
        ofAction group resource action

end Payload

end Mson
