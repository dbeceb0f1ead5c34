import Mson.Proofs.Rendering.Exclusion
import Mson.Proofs.Rendering.Layout
import Mson.Proofs.UniqueMembers

/-!
# The names in a schema and in an example

The schema of an object goes through all options of its option sets, its example through the first
ones, and the example leaves out what has nothing to show. So each name in the example is a property,
provided that options are objects (`ObjectSchema.covers`): of an option of another kind the example
shows the children, and the schema takes the properties, which may be others. Without option sets, and
with something to show for every member, both sides have the keys of the members, each where it comes
first.
-/
namespace Mson

variable {types : SymbolTable}

/-! ## Every name in the example is a property -/

/-- Whether an option set has no options but objects. -/
def Visit.ObjectOptions : Visit → Prop
  | .rendered _ => True
  | .listed group => group.isOptionSet = true →
      ∀ option ∈ group.children, option.kind = some .object ∨ option.kind = some .option

/-- Whether a schema has a property for every name that the given members show. -/
def Schema.Covers (types : SymbolTable) (schema : Schema) (members : List Element) : Prop :=
  ∀ entries, ObjectExample types members entries →
    ∀ name ∈ Mapping.names entries, name ∈ Mapping.names (propertiesOf schema)

section Covers

variable {steps depth : Nat}

/-- A member defines what it shows if the schemas of options cover their children. -/
theorem Schema.mem_names_contribution {member : Element} {added : ObjectParts} {name : String}
    (ofOption : member.isOptionSet = true → ∀ option ∈ member.children, ∀ schema,
      renderSchemaWithin steps types depth option = .ok schema → schema.Covers types option.children)
    (success : contribution (renderSchemaWithin steps types depth) member = .ok added)
    (shows_ : Shows types member name) : name ∈ Mapping.names added.properties := by
  cases shows_ with
  | value slot _ _ _ =>
    obtain ⟨schema, -, properties⟩ := contribution_of_slot slot success
    rw [properties]
    exact List.mem_singleton_self name
  | option isOptionSet first shown named =>
    have child := List.mem_of_mem_head? first
    obtain ⟨options, rendered, rfl⟩ := contribution_of_isOptionSet isOptionSet success
    obtain ⟨schema, isOption, ofFirst⟩ := (exists_of_mapM_eq_ok rendered).1 _ child
    have declared := ofOption isOptionSet _ child schema ofFirst _ shown name named
    exact mem_names_flatMap.mpr ⟨schema, isOption, declared⟩

/-- The schema of an object covers its members if those of options cover their children. -/
theorem Schema.ofMembers_covers {members : List Element} {schema : Schema}
    (objectOptions : ∀ member ∈ members, Throughout types Visit.ObjectOptions (.listed member))
    (ofOption : ∀ option : Element, option.kind = some .object ∨ option.kind = some .option →
      Throughout types Visit.ObjectOptions (.rendered option) → ∀ schema,
      renderSchemaWithin steps types depth option = .ok schema → schema.Covers types option.children)
    (success : ofMembers steps types (renderSchemaWithin steps types depth) members = .ok schema) :
    schema.Covers types members := by
  intro entries shown name named
  obtain ⟨expanded, added, expands, contributed, rfl⟩ := ofMembers_eq_ok_iff.mp success
  obtain ⟨more, others, expandsToo, entriesOf⟩ := shown.mem_names_iff
  cases expandWithin_unique expandsToo expands
  obtain ⟨member, among, shows_⟩ := (entriesOf name).mp named
  obtain ⟨parts, isPart, contributes⟩ := (exists_of_mapM_eq_ok contributed).1 member among
  obtain ⟨-, given, known, visits⟩ := visited_of_mem_expandWithin expands member among
  have atMember := (objectOptions given known).visits visits
  have declared : name ∈ Mapping.names parts.properties := by
    refine mem_names_contribution (fun isOptionSet option child => ?_) contributes shows_
    exact ofOption option (atMember.here isOptionSet option child)
      (atMember.step (.option isOptionSet child))
  rw [propertiesOf_contributed, Mapping.mem_names_overwrite]
  exact .inr (mem_names_flatMap.mpr ⟨parts, isPart, declared⟩)

/-- The schema of an option covers its children. The induction is on the depth, as options may hold
option sets. -/
theorem renderSchemaWithin_covers {option : Element} {schema : Schema}
    (kind : option.kind = some .object ∨ option.kind = some .option)
    (objectOptions : Throughout types Visit.ObjectOptions (.rendered option))
    (success : renderSchemaWithin steps types depth option = .ok schema) :
    schema.Covers types option.children := by
  induction depth generalizing option schema with
  | zero => cases success
  | succ depth ih =>
    obtain ⟨body, contributed, form, finishes⟩ := exists_body_of_success success
    rw [Schema.ofKind_of_object kind] at contributed
    have covers : body.Covers types option.children :=
      Schema.ofMembers_covers (fun member child => objectOptions.step (.objectMember kind child))
        (fun _ isObject itsOptions _ => ih isObject itsOptions) contributed
    unfold Schema.Covers
    rw [Schema.propertiesOf_congr fun _ => form.get?_finished finishes]
    exact covers

theorem ObjectSchema.covers {members : List Element} {schema : Schema}
    (object : ObjectSchema types members schema)
    (objectOptions : ∀ member ∈ members, Throughout types Visit.ObjectOptions (.listed member)) :
    schema.Covers types members := by
  obtain ⟨steps, depth, success⟩ := object
  exact Schema.ofMembers_covers objectOptions
    (fun _ isObject itsOptions _ => renderSchemaWithin_covers isObject itsOptions) success

end Covers

/-- What leads to members leads to the visits that they lead to. -/
theorem RendersMembers.throughout {element : Element} {members : List Element}
    {property : Visit → Prop} (leads : RendersMembers types element members)
    (holds : Throughout types property (.rendered element)) :
    ∀ member ∈ members, Throughout types property (.listed member) := by
  induction leads with
  | object kind => exact fun member child => holds.step (.objectMember kind child)
  | optionSet kind =>
    intro member single
    rw [List.mem_singleton.mp single]
    exact holds.step (.optionSet kind)
  | target kind found _ ih => exact ih (holds.step (.target kind found))
  | inherit kind found _ ih => exact ih (holds.step (.inherit kind found))

/-! ## Without option sets -/

/-- Whether a member has a value with something to show. -/
def Element.Visible (types : SymbolTable) (member : Element) : Prop :=
  ∃ value example_, member.memberValue? = some value ∧ ShowsExample types value example_ ∧
    example_.isNull = false

/-- Members that are no option sets define their keys. -/
theorem MemberPart.names_allDefinitions {parts : List MemberPart}
    (defined : ∀ part ∈ parts, Defines types part.member part.definitions)
    (noGroups : ∀ part ∈ parts, ¬ part.member.isOptionSet = true) :
    Mapping.names (allDefinitions parts) = slots (parts.map MemberPart.member) := by
  induction parts with
  | nil => rfl
  | cons part rest ih =>
    obtain ⟨defines, definesRest⟩ := List.forall_mem_cons.mp defined
    obtain ⟨noGroup, noGroupsRest⟩ := List.forall_mem_cons.mp noGroups
    have here : Mapping.names part.definitions = part.member.slot?.toList := by
      cases slot : part.member.slot? with
      | some key =>
        obtain ⟨schema, -, definitions⟩ := defines.of_slot slot
        rw [definitions]
        rfl
      | none => rw [defines.of_no_slot noGroup slot]; rfl
    have split : Mapping.names (allDefinitions (part :: rest)) =
        Mapping.names part.definitions ++ Mapping.names (allDefinitions rest) := by
      simp [allDefinitions, Mapping.names]
    rw [split, here, ih definesRest noGroupsRest, List.map_cons]
    cases slot : part.member.slot? <;> simp [slots, slot]

theorem ObjectSchema.names_eq {members : List Element} {schema : Schema}
    (object : ObjectSchema types members schema) {expanded : List Element}
    (expands : Expands types members expanded)
    (noGroups : ∀ member ∈ expanded, ¬ member.isOptionSet = true) :
    Mapping.names (Schema.propertiesOf schema) = (slots expanded).eraseDups := by
  obtain ⟨more, depth, success⟩ := object
  obtain ⟨parts, expandsToo, laidOut⟩ := Schema.exists_laidOut success
  cases expands.unique expandsToo
  have noGroup : ∀ part ∈ parts, ¬ part.member.isOptionSet = true :=
    fun part among => noGroups part.member (List.mem_map_of_mem among)
  rw [laidOut.order, MemberPart.names_allDefinitions laidOut.defined noGroup]

/-- Visible members contribute one entry for each key, in order. -/
theorem Example.names_contributions {steps depth : Nat} {members : List Element}
    {added : List (Mapping Value)} (noGroups : ∀ member ∈ members, ¬ member.isOptionSet = true)
    (visible : ∀ member ∈ members, ∀ key, member.slot? = some key → member.Visible types)
    (contributed : members.mapM (contribution (renderExampleWithin steps types depth)
      (renderMembersWithin steps types depth)) = .ok added) :
    Mapping.names added.flatten = slots members := by
  induction members generalizing added with
  | nil =>
    rw [mapM_nil_eq_ok_iff.mp contributed]
    rfl
  | cons member rest ih =>
    obtain ⟨own, others, here, later, rfl⟩ := mapM_cons_eq_ok_iff.mp contributed
    obtain ⟨noGroup, noGroupsRest⟩ := List.forall_mem_cons.mp noGroups
    obtain ⟨visibleHere, visibleRest⟩ := List.forall_mem_cons.mp visible
    have names : Mapping.names own = member.slot?.toList := by
      cases isContribution here with
      | firstOption isOptionSet _ _ => exact absurd isOptionSet noGroup
      | noOption isOptionSet _ => exact absurd isOptionSet noGroup
      | value slot _ _ _ => rw [slot]; rfl
      | hidden slot held shown isNull =>
        obtain ⟨value, example_, sameHeld, other, some⟩ := visibleHere _ slot
        cases held.symm.trans sameHeld
        rw [other.unique ⟨steps, depth, shown⟩, isNull] at some
        cases some
      | incomplete _ lacks =>
        cases slot : member.slot? with
        | none => rfl
        | some key =>
          obtain ⟨value, _, held, -⟩ := visibleHere key slot
          exact absurd held (lacks key value slot)
    have split : Mapping.names (own :: others).flatten =
        Mapping.names own ++ Mapping.names others.flatten := by
      simp [Mapping.names]
    rw [split, names, ih noGroupsRest visibleRest later]
    cases slot : member.slot? <;> simp [slots, slot]

theorem ObjectExample.names_eq {members : List Element} {entries : Mapping Value}
    (object : ObjectExample types members entries) {expanded : List Element}
    (expands : Expands types members expanded)
    (noGroups : ∀ member ∈ expanded, ¬ member.isOptionSet = true)
    (visible : ∀ member ∈ expanded, ∀ key, member.slot? = some key → member.Visible types) :
    Mapping.names entries = (slots expanded).eraseDups := by
  obtain ⟨_, _, others, added, expandsToo, contributed, rfl⟩ := object.exists_contributions
  cases expands.unique (.of_expandWithin expandsToo)
  rw [Mapping.names_overwrite_nil, Example.names_contributions noGroups visible contributed]

/-! ## Both sides of one element -/

/-- An element that is rendered as an object has a schema with properties and an example with entries.
If there are no options but objects, the entries are among the properties; if there are no option
sets and each member with a key has something to show, they have the same names in the same order. -/
theorem schema_example_names {element : Element} {members : List Element}
    {steps depth more deeper : Nat} (parsedTypes : types.Parsed) (parsed : element.Parsed)
    (leads : RendersMembers types element members)
    (schemaEnds : Settled (renderSchemaWithin steps types depth element))
    (exampleEnds : Settled (renderExampleWithin more types deeper element)) :
    ∃ (schema : Schema) (properties entries : Mapping Value) (expanded : List Element),
      renderSchemaWithin steps types depth element = .ok schema ∧
      Mapping.get? schema "properties" = some (.object properties) ∧
      renderExampleWithin more types deeper element = .ok (.object entries) ∧
      Expands types members expanded ∧
      (Throughout types Visit.ObjectOptions (.rendered element) →
        ∀ name ∈ Mapping.names entries, name ∈ Mapping.names properties) ∧
      ((∀ member ∈ expanded, ¬ member.isOptionSet = true) →
        (∀ member ∈ expanded, ∀ key, member.slot? = some key → member.Visible types) →
          Mapping.names entries = Mapping.names properties) := by
  obtain ⟨schema, success⟩ := exists_schema_of_settled parsedTypes parsed schemaEnds
  obtain ⟨example_, shown⟩ := exists_example_of_settled exampleEnds
  obtain ⟨inner, object, kept⟩ := leads.objectSchema ⟨steps, depth, success⟩
  obtain ⟨entries, ofMembers, rfl⟩ := leads.objectExample ⟨more, deeper, shown⟩
  have properties : Mapping.get? schema "properties" =
      some (.object (Schema.propertiesOf inner)) := by
    obtain ⟨_, _, made⟩ := object
    obtain ⟨_, _, laidOut⟩ := Schema.exists_laidOut made
    rw [kept "properties" (by decide)]
    exact laidOut.properties
  obtain ⟨_, expanded, reached, -⟩ := ofMembers.mem_names_iff
  have expands : Expands types members expanded := .of_expandWithin reached
  refine ⟨schema, Schema.propertiesOf inner, entries, expanded, success, properties, shown,
    expands, fun objectOptions => ?_, fun noGroups visible => ?_⟩
  · exact object.covers (leads.throughout objectOptions) entries ofMembers
  · rw [object.names_eq expands noGroups, ofMembers.names_eq expands noGroups visible]

namespace SharedNames

open SwappedMembers (member memberNode)
open Rows (listNode)

def text : Element := ⟨"string", .absent, [], []⟩

def option (key : String) : Element := ⟨"option", .children [member key], [], []⟩

def group : Element := ⟨"select", .children [option "a", option "b"], [], []⟩

def table : SymbolTable := [("Identified", ⟨"object", .children [member "id"], [], []⟩)]

/-- An object of the declared type with an option set. -/
def choosing : Element := ⟨"Identified", .children [group], [], []⟩

/-- An object that includes the declared type. -/
def including : Element :=
  ⟨"object", .children [⟨"ref", .literal (.string "Identified"), [], []⟩, member "name"], [], []⟩

theorem table_parsed : table.Parsed := by
  intro entry declared
  rw [table, List.mem_singleton] at declared
  subst declared
  exact ⟨listNode "object" [memberNode "id"], by decide, rfl⟩

theorem member_objectOptions {key : String} :
    Throughout table Visit.ObjectOptions (.listed (member key)) := by
  have kind : (member key).kind = some .member := rfl
  refine .intro (fun isOptionSet => ?_) fun after next => ?_
  · simp [Element.isOptionSet, kind] at isOptionSet
  · cases next with
    | mixin isReference _ => simp [Element.isReference, kind] at isReference
    | option isOptionSet _ => simp [Element.isOptionSet, kind] at isOptionSet
    | firstOption isOptionSet _ _ => simp [Element.isOptionSet, kind] at isOptionSet
    | value _ held =>
      cases held
      have simple : text.kind = some .string := rfl
      exact .intro trivial fun _ next => absurd next (Step.not_of_primitive simple rfl)

theorem option_objectOptions {key : String} :
    Throughout table Visit.ObjectOptions (.rendered (option key)) := by
  refine .intro trivial fun after next => ?_
  obtain ⟨child, among, rfl⟩ := next.of_object (.inr rfl)
  rw [List.mem_singleton.mp among]
  exact member_objectOptions

theorem group_objectOptions : Throughout table Visit.ObjectOptions (.listed group) := by
  refine .intro (fun _ => by decide) fun after next => ?_
  cases next with
  | mixin isReference _ => exact absurd isReference (by decide)
  | value slot _ => cases slot
  | option _ child =>
    rcases List.mem_pair.mp child with rfl | rfl
    · exact option_objectOptions
    · exact option_objectOptions
  | firstOption _ first child =>
    cases first
    rw [List.mem_singleton.mp child]
    exact member_objectOptions

theorem choosing_objectOptions : Throughout table Visit.ObjectOptions (.rendered choosing) := by
  refine .intro trivial fun after next => ?_
  obtain ⟨base, found, rfl⟩ := next.of_unknown_kind rfl
  cases found
  refine .intro trivial fun after next => ?_
  obtain ⟨child, among, rfl⟩ := next.of_object (.inl rfl)
  rcases List.mem_pair.mp among with rfl | rfl
  · exact member_objectOptions
  · exact group_objectOptions

theorem member_visible {key : String} : (member key).Visible table :=
  ⟨text, .string "Hello, world!", rfl, ⟨0, 1, rfl⟩, rfl⟩

/-- The names of the first option are among the properties; an included member stands before the own
one on both sides. -/
theorem schema_example_names_shared :
    table.Parsed ∧ choosing.Parsed ∧ including.Parsed ∧
      (∃ (schema : Schema) (properties entries : Mapping Value),
        renderSchema table choosing = .ok schema ∧
        Mapping.get? schema "properties" = some (.object properties) ∧
        renderExample table choosing = .ok (.object entries) ∧
        Mapping.names entries = ["id", "a"] ∧
        ∀ name ∈ Mapping.names entries, name ∈ Mapping.names properties) ∧
      ∃ (schema : Schema) (properties entries : Mapping Value),
        renderSchema table including = .ok schema ∧
        Mapping.get? schema "properties" = some (.object properties) ∧
        renderExample table including = .ok (.object entries) ∧
        Mapping.names entries = ["id", "name"] ∧
        Mapping.names entries = Mapping.names properties := by
  have choosingParsed : choosing.Parsed :=
    ⟨listNode "Identified" [listNode "select" [listNode "option" [memberNode "a"],
      listNode "option" [memberNode "b"]]], by decide, rfl⟩
  have includingParsed : including.Parsed :=
    ⟨listNode "object" [.object [("element", .string "ref"), ("content", .string "Identified")],
      memberNode "name"], by decide, rfl⟩
  refine ⟨table_parsed, choosingParsed, includingParsed, ?_, ?_⟩
  · have leads : RendersMembers table choosing [member "id", group] :=
      .inherit rfl rfl (.object (.inl rfl))
    have ofExample : renderExample table choosing =
        .ok (.object [("id", .string "Hello, world!"), ("a", .string "Hello, world!")]) := rfl
    have schemaEnds : Settled (renderSchemaWithin expansionSteps table renderDepth choosing) :=
      settled_ok _
    have exampleEnds : Settled (renderExampleWithin expansionSteps table renderDepth choosing) :=
      settled_ok _
    obtain ⟨schema, properties, entries, expanded, rendered, found, shown, -, covered, -⟩ :=
      schema_example_names table_parsed choosingParsed leads schemaEnds exampleEnds
    cases ofExample.symm.trans shown
    exact ⟨schema, properties, _, rendered, found, ofExample, rfl, covered choosing_objectOptions⟩
  · have leads : RendersMembers table including including.children := .object (.inl rfl)
    have ofExample : renderExample table including =
        .ok (.object [("id", .string "Hello, world!"), ("name", .string "Hello, world!")]) := rfl
    have schemaEnds : Settled (renderSchemaWithin expansionSteps table renderDepth including) :=
      settled_ok _
    have exampleEnds : Settled (renderExampleWithin expansionSteps table renderDepth including) :=
      settled_ok _
    obtain ⟨schema, properties, entries, expanded, rendered, found, shown, expands, -, same⟩ :=
      schema_example_names table_parsed includingParsed leads schemaEnds exampleEnds
    cases ofExample.symm.trans shown
    have reached : expandWithin table 3 including.children = some [member "id", member "name"] := rfl
    cases expands.unique (.of_expandWithin reached)
    refine ⟨schema, properties, _, rendered, found, ofExample, rfl, same (by decide) ?_⟩
    intro other among _ _
    rcases List.mem_pair.mp among with rfl | rfl
    · exact member_visible
    · exact member_visible

end SharedNames

end Mson
