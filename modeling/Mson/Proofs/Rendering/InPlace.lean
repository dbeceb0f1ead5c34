import Mson.Proofs.Rendering.Success
import Mson.Proofs.Schema.ClosedShape

/-!
# Where rendering widens

Rendering widens schemas in two places: that of a nullable element when its description has been put in,
and that of a nullable member. Both are closed, and a closed schema is widened in place: by its type, by
its choices, or not at all (`Schema.WidensInPlace`). The branches of `widen` that search or make
alternatives are not reached, nor those that fail. This is said by rendering with another widening
instead (`renderSchemaBy`): as long as it agrees on the schemas that are widened in place, the result is
the same.
-/
namespace Mson

namespace Schema

/-- Whether a schema is widened by its type or by a list of choices, or constrains nothing. -/
inductive WidensInPlace (schema : Schema) : Prop
  | type {name : String} (named : Mapping.get? schema "type" = some (.string name))
  | types {types : List Value} (listed : Mapping.get? schema "type" = some (.array types))
  | choices {items : List Value} (untyped : Mapping.get? schema "type" = none)
      (listed : Mapping.get? schema "enum" = some (.array items))
  | free (untyped : Mapping.get? schema "type" = none)
      (noChoices : Mapping.get? schema "enum" = none) (nothing : constraints schema = [])

theorem Closed.widensInPlace {schema : Schema} (closed : schema.Closed) : schema.WidensInPlace := by
  obtain ⟨core, description⟩ := closed
  cases core.start with
  | free =>
    have nothing : constraints (optionally descriptionKeyword description) = [] := by
      cases description <;> rfl
    exact .free (get?_optionally_of_ne (by decide) _) (get?_optionally_of_ne (by decide) _) nothing
  | choices items =>
    have untyped : Mapping.get? ([("enum", .array items)] ++
        optionally descriptionKeyword description) "type" = none := by
      rw [List.singleton_append, Mapping.get?_cons, if_neg (by decide),
        get?_optionally_of_ne (by decide)]
    exact .choices untyped (Mapping.get?_cons_self ..)
  | typed _ named _ =>
    cases named with
    | alone => exact .type (Mapping.get?_cons_self ..)
    | orNull => exact .types (Mapping.get?_cons_self ..)

section By

variable (widening : Schema → Except WideningFault Schema)

def widenIfNullableBy (element : Element) (schema : Schema) : Except RenderFault Schema := do
  if ← flagged element nullableFlag then (widening schema).mapError .widening else return schema

/-- The options of a set are rendered, but not widened. -/
def addMemberBy (render : Element → Except RenderFault Schema) (parts : ObjectParts)
    (member : Element) : Except RenderFault ObjectParts := do
  if member.isOptionSet then addMember render parts member
  else match member.slot? with
    | none => return parts
    | some key =>
        let schema ← propertySchema render member
        let required ← flagged member requiredFlag
        let schema ← widenIfNullableBy widening member schema
        return { parts with
          properties := Mapping.put parts.properties key (.object schema)
          required := if required then addName parts.required key else parts.required }

def ofMembersBy (steps : Nat) (types : SymbolTable) (render : Element → Except RenderFault Schema)
    (members : List Element) : Except RenderFault Schema :=
  match expandWithin types steps members with
  | none => .error .expansionExceeded
  | some members => do
      let parts ← members.foldlM (addMemberBy widening render) ⟨[], [], []⟩
      return parts.toSchema

/-- Of all kinds only those with members widen by themselves. -/
def ofKindBy (steps : Nat) (types : SymbolTable) (render : Element → Except RenderFault Schema)
    (element : Element) : Except RenderFault Schema :=
  match element.kind with
  | some .object | some .option => ofMembersBy widening steps types render element.children
  | some .optionSet => ofMembersBy widening steps types render [element]
  | _ => ofKind steps types render element

end By

end Schema

/-- Renders a schema as `renderSchemaWithin` does, but widens it in another way. -/
def renderSchemaBy (widening : Schema → Except WideningFault Schema) (steps : Nat)
    (types : SymbolTable) : Nat → Element → Except RenderFault Schema
  | 0, _ => .error .depthExceeded
  | depth + 1, element => do
      let schema ← Schema.ofKindBy widening steps types
        (renderSchemaBy widening steps types depth) element
      Schema.widenIfNullableBy widening element (Schema.describe element schema)

section Agreement

variable {widening : Schema → Except WideningFault Schema} {steps depth : Nat} {types : SymbolTable}
  {element : Element} {schema : Schema}
  (agrees : ∀ schema : Schema, schema.WidensInPlace → widening schema = schema.widen)

include agrees

namespace Schema

theorem widenIfNullableBy_eq (closed : schema.Closed) :
    widenIfNullableBy widening element schema = widenIfNullable element schema := by
  unfold widenIfNullableBy widenIfNullable widenOrFail
  rw [agrees schema closed.widensInPlace]

variable {render : Element → Except RenderFault Schema}
  (rendered : ∀ element schema, render element = .ok schema → schema.Closed)

include rendered

theorem addMemberBy_eq (parts : ObjectParts) (member : Element) :
    addMemberBy widening render parts member = addMember render parts member := by
  unfold addMemberBy
  split
  · rfl
  · rename_i noGroup
    rw [addMember, if_neg noGroup]
    cases member.slot? with
    | none => rfl
    | some key =>
      cases property : propertySchema render member with
      | error fault => rfl
      | ok described =>
        -- The description is there already when the member is widened.
        have closed := propertySchema_closed rendered property
        cases flagged member requiredFlag with
        | error fault => rfl
        | ok required =>
          show (widenIfNullableBy widening member described >>= _) =
            (widenIfNullable member described >>= _)
          rw [widenIfNullableBy_eq agrees closed]

theorem ofMembersBy_eq (members : List Element) :
    ofMembersBy widening steps types render members = ofMembers steps types render members := by
  have same : addMemberBy widening render = addMember render :=
    funext fun parts => funext fun member => addMemberBy_eq agrees rendered parts member
  rw [ofMembersBy, same]
  rfl

theorem ofKindBy_eq :
    ofKindBy widening steps types render element = ofKind steps types render element := by
  unfold ofKindBy
  split
  · rename_i kind
    rw [ofMembersBy_eq agrees rendered, ofKind_of_object (.inl kind)]
  · rename_i kind
    rw [ofMembersBy_eq agrees rendered, ofKind_of_object (.inr kind)]
  · rename_i kind
    simp only [ofMembersBy_eq agrees rendered, ofKind, kind]
  · rfl

end Schema

/-- Rendering comes to the same with every widening that agrees where schemas are widened in place. -/
theorem renderSchemaBy_eq :
    renderSchemaBy widening steps types depth element =
      renderSchemaWithin steps types depth element := by
  induction depth generalizing element with
  | zero => rfl
  | succ depth ih =>
    have below : renderSchemaBy widening steps types depth = renderSchemaWithin steps types depth :=
      funext fun _ => ih
    have rendered : ∀ element schema, renderSchemaWithin steps types depth element = .ok schema →
        schema.Closed := fun _ _ => renderSchemaWithin_closed
    rw [renderSchemaWithin_succ, renderSchemaBy, below, Schema.ofKindBy_eq agrees rendered]
    cases contributed : Schema.ofKind steps types (renderSchemaWithin steps types depth) element with
    | error fault => rfl
    | ok body =>
      have closed : body.Closed := Schema.ofKind_closed rendered contributed
      exact Schema.widenIfNullableBy_eq agrees (closed.describe element)

end Agreement

/-- A parsed element has a schema wherever its rendering comes to an end, of a closed shape. No other
branch of widening is reached on the way than those that widen in place: with these alone the schema is
the same. -/
theorem rendered_schema_closed {types : SymbolTable} {element : Element} {steps depth : Nat}
    (parsedTypes : types.Parsed) (parsed : element.Parsed)
    (ends : Settled (renderSchemaWithin steps types depth element)) :
    ∃ schema, renderSchemaWithin steps types depth element = .ok schema ∧ schema.Closed ∧
      ∀ widening, (∀ schema : Schema, schema.WidensInPlace → widening schema = schema.widen) →
        renderSchemaBy widening steps types depth element = .ok schema := by
  obtain ⟨schema, success⟩ := exists_schema_of_settled parsedTypes parsed ends
  refine ⟨schema, success, renderSchemaWithin_closed success, fun widening agrees => ?_⟩
  rw [renderSchemaBy_eq agrees, success]

namespace MismatchedContent

/-! A member of a type that is based on a number and is given choices all the same. Null and a
description are put in by the number and once more by the member. -/

def nullable : List (String × Json) := [(flagsAttribute, .array [.string nullableFlag])]

def described (text : String) : List (String × Json) := [("description", .string text)]

def years : Element := ⟨"number", .absent, described "years", nullable ++ [("default", .int 1)]⟩

def table : SymbolTable := [("Age", years)]

def choice : Element := ⟨"number", .literal (.int 7), [], []⟩

def element : Element :=
  ⟨"object", .children [⟨"member", .member ⟨"string", .literal (.string "age"), [], []⟩
    (some ⟨"Age", .children [choice], [], []⟩), described "at most 120", nullable⟩], [], nullable⟩

def yearsNode : Json :=
  .object [("element", .string "number"), ("meta", .object (described "years")),
    ("attributes", .object (nullable ++ [("default", .int 1)]))]

def node : Json :=
  .object [("element", .string "object"), ("attributes", .object nullable), ("content", .array
    [.object [("element", .string "member"), ("meta", .object (described "at most 120")),
      ("attributes", .object nullable), ("content", .object
        [("key", .object [("element", .string "string"), ("content", .string "age")]),
          ("value", .object [("element", .string "Age"), ("content", .array
            [.object [("element", .string "number"), ("content", .int 7)]])])])]])]

def shown : Schema :=
  [("type", .array [.string "object", .string "null"]),
    ("properties", .object [("age", .object
      [("type", .array [.string "number", .string "null"]), ("default", .int 1),
        ("description", .string "at most 120")])])]

/-- Widens in place or fails. -/
def strict (schema : Schema) : Except WideningFault Schema :=
  if Mapping.has schema "type" || Mapping.has schema "enum" || (Schema.constraints schema).isEmpty then
    schema.widen
  else .error .alternativesNotAList

theorem strict_agrees (schema : Schema) (inPlace : schema.WidensInPlace) :
    strict schema = schema.widen := by
  unfold strict
  refine if_pos ?_
  cases inPlace with
  | type named => simp [Mapping.has, named]
  | types listed => simp [Mapping.has, listed]
  | choices _ listed => simp [Mapping.has, listed]
  | free _ _ nothing => simp [nothing]

theorem rendered_schema_closed_nullable :
    table.Parsed ∧ element.Parsed ∧ renderSchema table element = .ok shown ∧ shown.Closed ∧
      renderSchemaBy strict expansionSteps table renderDepth element = .ok shown := by
  have parsedTable : table.Parsed := by
    rintro entry (_ | ⟨_, ⟨⟩⟩)
    exact ⟨yearsNode, by decide, rfl⟩
  have parsed : element.Parsed := ⟨node, by decide, rfl⟩
  have rendered : renderSchemaWithin expansionSteps table renderDepth element = .ok shown := rfl
  have ends : Settled (renderSchemaWithin expansionSteps table renderDepth element) := by
    rw [rendered]
    exact settled_ok shown
  obtain ⟨schema, success, closed, inPlace⟩ := rendered_schema_closed parsedTable parsed ends
  cases rendered.symm.trans success
  exact ⟨parsedTable, parsed, rendered, closed, inPlace strict strict_agrees⟩

end MismatchedContent

end Mson
