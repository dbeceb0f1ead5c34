import Mson.Proofs.Rendering.Object
import Mson.Proofs.Rendering.Success
import Mson.Proofs.Schema.Items

/-!
# The layout of object schemas

Three lists grow while the members of an object are gone through: the properties, the required names
and the clauses of the option sets. `LaidOut` says what they come to: names stand where they come
first, of several definitions the last one counts, and whatever is required or excluded is a property.
It is a statement about the expanded members, each with the definitions that it makes, so it follows
from what one member contributes (`exists_parts`).

A rendered schema holds further ones, below its properties and its items. Description and null are put
in after those are made and leave them alone, so the layout is found at every object schema inside
(`object_schemas_laid_out`).
-/
namespace Mson

variable {types : SymbolTable}

/-- The property definitions that a member makes, in their order: its schema under its key, or those
of all options of a set, which may share names. -/
inductive Defines (types : SymbolTable) : Element → Mapping Value → Prop
  | member {member : Element} {key : String} {schema : Schema} (slot : member.slot? = some key)
      (shown : MemberSchema types member schema) : Defines types member [(key, .object schema)]
  | optionSet {group : Element} {options : List Schema} (isOptionSet : group.isOptionSet = true)
      (shown : List.Forall₂ (ShowsSchema types) group.children options) :
      Defines types group (options.flatMap Schema.propertiesOf)
  | other {member : Element} (noOptionSet : ¬ member.isOptionSet = true)
      (noSlot : member.slot? = none) : Defines types member []

/-- The key of a member that is flagged as required. -/
def Element.requiredKey? (member : Element) : Option String :=
  match member.slot?, member.hasFlag requiredFlag with
  | some key, .ok true => some key
  | _, _ => none

/-- An expanded member with the property definitions that it makes. -/
structure MemberPart where
  member : Element
  definitions : Mapping Value

namespace MemberPart

def allDefinitions (parts : List MemberPart) : Mapping Value := parts.flatMap definitions

/-- The required keys, each where it comes first. -/
def requiredNames (parts : List MemberPart) : List String :=
  (parts.filterMap fun part => part.member.requiredKey?).eraseDups

/-- For each option set the names that it defines. -/
def exclusiveGroups (parts : List MemberPart) : List (List String) :=
  (parts.filter fun part => part.member.isOptionSet).map fun part =>
    (Mapping.names part.definitions).eraseDups

end MemberPart

/-- Whether the keywords of an object schema are what its expanded members make. -/
structure Schema.LaidOut (types : SymbolTable) (parts : List MemberPart) (schema : Schema) :
    Prop where
  defined : ∀ part ∈ parts, Defines types part.member part.definitions
  properties : Mapping.get? schema "properties" = some (.object (propertiesOf schema))
  /-- Properties stand where they come first. -/
  order : Mapping.names (propertiesOf schema) =
    (Mapping.names (MemberPart.allDefinitions parts)).eraseDups
  /-- The last definition of a property counts. -/
  last : ∀ name, Mapping.get? (propertiesOf schema) name =
    Mapping.get? (MemberPart.allDefinitions parts).reverse name
  required : Mapping.get? schema "required" =
    if MemberPart.requiredNames parts = [] then none
    else some (.array ((MemberPart.requiredNames parts).map Value.string))
  requiredDeclared : (MemberPart.requiredNames parts).Nodup ∧
    ∀ name ∈ MemberPart.requiredNames parts, name ∈ Mapping.names (propertiesOf schema)
  exclusive : Mapping.get? schema "allOf" =
    if MemberPart.exclusiveGroups parts = [] then none
    else some (.array ((MemberPart.exclusiveGroups parts).map exclusionClause))
  exclusiveDeclared : ∀ names ∈ MemberPart.exclusiveGroups parts,
    names.Nodup ∧ ∀ name ∈ names, name ∈ Mapping.names (propertiesOf schema)

theorem Defines.of_slot {member : Element} {key : String} {definitions : Mapping Value}
    (defines : Defines types member definitions) (slot : member.slot? = some key) :
    ∃ schema, MemberSchema types member schema ∧ definitions = [(key, .object schema)] := by
  cases defines with
  | member sameSlot shown =>
    cases sameSlot.symm.trans slot
    exact ⟨_, shown, rfl⟩
  | optionSet isOptionSet _ => exact absurd isOptionSet (not_isOptionSet_of_slot slot)
  | other _ noSlot =>
    rw [noSlot] at slot
    cases slot

theorem Defines.of_no_slot {member : Element} {definitions : Mapping Value}
    (defines : Defines types member definitions) (noGroup : ¬ member.isOptionSet = true)
    (noSlot : member.slot? = none) : definitions = [] := by
  cases defines with
  | member slot _ =>
    rw [noSlot] at slot
    cases slot
  | optionSet isOptionSet _ => exact absurd isOptionSet noGroup
  | other _ _ => rfl

theorem Element.slot?_of_requiredKey? {member : Element} {key : String}
    (required : member.requiredKey? = some key) : member.slot? = some key := by
  unfold Element.requiredKey? at required
  split at required
  · rename_i slot _
    cases required
    exact slot
  · cases required

/-! ## One object -/

/-- A contribution consists of the definitions that the member makes, the names they have if it is an
option set, and its key if it is required. -/
theorem Schema.contribution_defines {steps depth : Nat} {member : Element} {added : ObjectParts}
    (success : contribution (renderSchemaWithin steps types depth) member = .ok added) :
    Defines types member added.properties ∧
      added.exclusive = (if member.isOptionSet then [(Mapping.names added.properties).eraseDups]
        else []) ∧
      added.required = member.requiredKey?.toList := by
  cases isContribution success with
  | optionSet isOptionSet rendered =>
    have shown := (mapM_eq_ok_iff_forall₂.mp rendered).imp fun option schema rendered =>
      (⟨steps, depth, rendered⟩ : ShowsSchema types option schema)
    refine ⟨.optionSet isOptionSet shown, by rw [if_pos isOptionSet], ?_⟩
    simp [Element.requiredKey?, Element.slot?_of_isOptionSet isOptionSet]
  | @member key schema required slot shown flag =>
    refine ⟨.member slot ⟨steps, depth, shown⟩, by rw [if_neg (not_isOptionSet_of_slot slot)], ?_⟩
    cases required <;> simp [Element.requiredKey?, slot, flag]
  | other noGroup noSlot =>
    exact ⟨.other noGroup noSlot, by rw [if_neg noGroup], by simp [Element.requiredKey?, noSlot]⟩

/-- The contributions of a list of members, as parts. -/
theorem Schema.exists_parts {steps depth : Nat} {expanded : List Element} {added : List ObjectParts}
    (contributed :
      expanded.mapM (contribution (renderSchemaWithin steps types depth)) = .ok added) :
    ∃ parts : List MemberPart, expanded = parts.map MemberPart.member ∧
      (∀ part ∈ parts, Defines types part.member part.definitions) ∧
      added.flatMap ObjectParts.properties = MemberPart.allDefinitions parts ∧
      added.flatMap ObjectParts.exclusive = MemberPart.exclusiveGroups parts ∧
      added.flatMap ObjectParts.required = parts.filterMap fun part => part.member.requiredKey? := by
  induction expanded generalizing added with
  | nil =>
    rw [mapM_nil_eq_ok_iff.mp contributed]
    exact ⟨[], rfl, fun _ impossible => absurd impossible List.not_mem_nil, rfl, rfl, rfl⟩
  | cons member rest ih =>
    obtain ⟨first, others, here, later, rfl⟩ := mapM_cons_eq_ok_iff.mp contributed
    obtain ⟨parts, rfl, defined, properties, exclusive, required⟩ := ih later
    obtain ⟨defines, ofGroup, ofFlag⟩ := contribution_defines here
    refine ⟨⟨member, first.properties⟩ :: parts, rfl, List.forall_mem_cons.mpr ⟨defines, defined⟩,
      ?_, ?_, ?_⟩
    · rw [List.flatMap_cons, properties]
      rfl
    · rw [List.flatMap_cons, exclusive, ofGroup]
      by_cases isOptionSet : member.isOptionSet = true
      · simp [MemberPart.exclusiveGroups, isOptionSet]
      · simp [MemberPart.exclusiveGroups, isOptionSet]
    · rw [List.flatMap_cons, required, ofFlag, List.filterMap_cons]
      cases member.requiredKey? <;> rfl

namespace Schema.LaidOut

variable {parts : List MemberPart} {schema : Schema}

/-- The layout is one of the keywords that the members make. -/
theorem congr {other : Schema} (laidOut : LaidOut types parts schema)
    (kept : ∀ keyword ∈ memberKeywords, Mapping.get? other keyword = Mapping.get? schema keyword) :
    LaidOut types parts other := by
  have properties := propertiesOf_congr kept
  refine ⟨laidOut.defined, ?_, ?_, ?_, ?_, ?_, ?_, ?_⟩
  · rw [kept "properties" (by decide), properties]
    exact laidOut.properties
  · rw [properties]
    exact laidOut.order
  · rw [properties]
    exact laidOut.last
  · rw [kept "required" (by decide)]
    exact laidOut.required
  · rw [properties]
    exact laidOut.requiredDeclared
  · rw [kept "allOf" (by decide)]
    exact laidOut.exclusive
  · rw [properties]
    exact laidOut.exclusiveDeclared

theorem of_parts (defined : ∀ part ∈ parts, Defines types part.member part.definitions) :
    LaidOut types parts (ObjectParts.toSchema ⟨Mapping.overwrite [] (MemberPart.allDefinitions parts),
      MemberPart.exclusiveGroups parts, MemberPart.requiredNames parts⟩) := by
  have declared : ∀ part ∈ parts, ∀ name ∈ Mapping.names part.definitions,
      name ∈ Mapping.names (Mapping.overwrite [] (MemberPart.allDefinitions parts)) := by
    intro part among name named
    rw [Mapping.mem_names_overwrite]
    exact .inr (mem_names_flatMap.mpr ⟨part, among, named⟩)
  refine ⟨defined, ?_, ?_, ?_, ?_, ⟨nodup_eraseDups _, ?_⟩, ?_, ?_⟩
  · rw [propertiesOf_toSchema]
    rfl
  · rw [propertiesOf_toSchema, Mapping.names_overwrite_nil]
  · rw [propertiesOf_toSchema]
    exact Mapping.get?_overwrite_nil _
  · by_cases none : MemberPart.requiredNames parts = [] <;>
      simp [ObjectParts.get?_toSchema, none]
  · intro name required
    obtain ⟨part, among, key⟩ := List.mem_filterMap.mp (List.mem_eraseDups.mp required)
    obtain ⟨own, -, definitions⟩ := (defined part among).of_slot (Element.slot?_of_requiredKey? key)
    rw [propertiesOf_toSchema]
    exact declared part among name (by rw [definitions]; exact List.mem_singleton_self name)
  · by_cases none : MemberPart.exclusiveGroups parts = [] <;>
      simp [ObjectParts.get?_toSchema, none]
  · intro names excluded
    obtain ⟨part, isGroup, rfl⟩ := List.mem_map.mp excluded
    refine ⟨nodup_eraseDups _, fun name named => ?_⟩
    rw [propertiesOf_toSchema]
    exact declared part (List.mem_filter.mp isGroup).1 name (List.mem_eraseDups.mp named)

end Schema.LaidOut

/-- What the members of an object make is laid out by what they are expanded to. -/
theorem Schema.exists_laidOut {steps depth : Nat} {members : List Element} {schema : Schema}
    (success : ofMembers steps types (renderSchemaWithin steps types depth) members = .ok schema) :
    ∃ parts : List MemberPart, Expands types members (parts.map MemberPart.member) ∧
      LaidOut types parts schema := by
  obtain ⟨expanded, added, expands, contributed, rfl⟩ := ofMembers_eq_ok_iff.mp success
  obtain ⟨parts, rfl, defined, properties, exclusive, required⟩ := exists_parts contributed
  refine ⟨parts, .of_expandWithin expands, ?_⟩
  have same : added.foldl ObjectParts.append ⟨[], [], []⟩ =
      ⟨Mapping.overwrite [] (MemberPart.allDefinitions parts), MemberPart.exclusiveGroups parts,
        MemberPart.requiredNames parts⟩ := by
    have whole : ∀ gone : ObjectParts,
        gone = ⟨gone.properties, gone.exclusive, gone.required⟩ := fun _ => rfl
    rw [whole (added.foldl _ _), properties_foldl_append, exclusive_foldl_append,
      required_foldl_append, foldl_addName_nil, properties, exclusive, required]
    rfl
  rw [same]
  exact .of_parts defined

/-! ## Schemas inside a schema -/

namespace Schema

/-- The schemas that a rendered schema is put together from, one level down. -/
inductive Below : Schema → Schema → Prop
  | property {outer inner : Schema} {properties : Mapping Value} {name : String}
      (found : Mapping.get? outer "properties" = some (.object properties))
      (among : (name, .object inner) ∈ properties) : Below outer inner
  | items {outer inner : Schema} (found : Mapping.get? outer "items" = some (.object inner)) :
      Below outer inner
  | alternative {outer inner : Schema} {alternatives : List Value}
      (found : Mapping.get? outer "anyOf" = some (.array alternatives))
      (among : .object inner ∈ alternatives) : Below outer inner

/-- The schemas at any depth, the schema itself included. -/
abbrev Inside : Schema → Schema → Prop := Relation.ReflTransGen Below

/-- Whether objects are among the types that a schema names. -/
def DescribesObject (schema : Schema) : Prop :=
  Mapping.get? schema "type" = some (.string "object") ∨
    ∃ names, Mapping.get? schema "type" = some (.array names) ∧ .string "object" ∈ names

/-- The keywords that hold further schemas. -/
def holders : List String := ["properties", "items", "anyOf"]

theorem Below.congr {schema other inner : Schema} (below : Below other inner)
    (kept : ∀ keyword ∈ holders, Mapping.get? other keyword = Mapping.get? schema keyword) :
    Below schema inner := by
  cases below with
  | property found among => exact .property (kept "properties" (by decide) ▸ found) among
  | items found => exact .items (kept "items" (by decide) ▸ found)
  | alternative found among => exact .alternative (kept "anyOf" (by decide) ▸ found) among

theorem not_below_of_silent {schema inner : Schema}
    (silent : ∀ keyword ∈ holders, Mapping.get? schema keyword = none) : ¬ Below schema inner := by
  intro below
  cases below with
  | property found _ => rw [silent "properties" (by decide)] at found; cases found
  | items found => rw [silent "items" (by decide)] at found; cases found
  | alternative found _ => rw [silent "anyOf" (by decide)] at found; cases found

/-- An object property of a schema is below it. -/
theorem Below.of_propertiesOf {schema inner : Schema} {name : String}
    (among : (name, .object inner) ∈ propertiesOf schema) : Below schema inner := by
  unfold propertiesOf at among
  split at among
  · rename_i properties found
    exact .property found among
  · cases among

theorem DescribesObject.congr {schema other : Schema} (describes : DescribesObject other)
    (kept : Mapping.get? other "type" = Mapping.get? schema "type") : DescribesObject schema := by
  unfold DescribesObject at describes ⊢
  rwa [kept] at describes

theorem not_describesObject_of_untyped {schema : Schema}
    (untyped : Mapping.get? schema "type" = none) : ¬ DescribesObject schema := by
  rintro (named | ⟨_, named, _⟩) <;> rw [untyped] at named <;> cases named

theorem DescribesObject.name_of_string {schema : Schema} {name : String}
    (describes : DescribesObject schema) (typed : Mapping.get? schema "type" = some (.string name)) :
    name = "object" := by
  rcases describes with named | ⟨_, named, _⟩
  · rw [typed] at named
    cases named
    rfl
  · rw [typed] at named
    cases named

/-- Null adds no object to the types. -/
theorem Form.describesObject_of_widen {schema widened : Schema} (form : schema.Form)
    (success : widen schema = .ok widened) (describes : DescribesObject widened) :
    DescribesObject schema := by
  cases form with
  | unconstrained silent =>
    rw [widen_unconstrained silent] at success
    cases success
    exact describes
  | enumerated choices listed alone =>
    rw [widen_enumerated listed alone] at success
    cases success
    refine describes.congr ?_
    split
    · rfl
    · exact Mapping.get?_put_of_ne _ _ (by decide)
  | typed name notNull declared _ _ =>
    obtain ⟨other, widens, pair, -⟩ := widen_typed notNull declared
    rw [success] at widens
    cases widens
    have named : name = "object" := by
      rcases describes with single | ⟨names, several, among⟩
      · rw [pair] at single
        cases single
      · rw [pair] at several
        cases several
        simpa [nullType, eq_comm] using among
    subst named
    exact declared.imp id fun pair => ⟨_, pair, List.mem_cons_self⟩

theorem Form.describesObject_of_finished {schema finished : Schema} (form : schema.Form)
    {element : Element}
    (success : Schema.widenIfNullable element (Schema.describe element schema) = .ok finished)
    (describes : DescribesObject finished) : DescribesObject schema := by
  have described : DescribesObject (Schema.describe element schema) := by
    rcases eq_or_widen_of_widenIfNullable success with rfl | widens
    · exact describes
    · exact (form.describe element).describesObject_of_widen widens describes
  exact described.congr (get?_describe_of_ne (by decide))

end Schema

/-- Whether an object schema is laid out by the members of an element that is visited from the given
place. -/
def LaidOutFrom (types : SymbolTable) (start : Visit) (schema : Schema) : Prop :=
  ∃ (origin : Element) (members : List Element) (parts : List MemberPart),
    Visits types start (.rendered origin) ∧ RendersMembers types origin members ∧
    Expands types members (parts.map MemberPart.member) ∧ Schema.LaidOut types parts schema

/-- Whether all object schemas inside a schema are laid out. -/
def ObjectsLaidOut (types : SymbolTable) (start : Visit) (schema : Schema) : Prop :=
  ∀ inner, schema.Inside inner → inner.DescribesObject → LaidOutFrom types start inner

namespace ObjectsLaidOut

variable {start visit : Visit} {schema inner : Schema}

theorem intro (here : schema.DescribesObject → LaidOutFrom types start schema)
    (below : ∀ inner, schema.Below inner → ObjectsLaidOut types start inner) :
    ObjectsLaidOut types start schema := by
  intro inner inside describes
  rcases inside.cases_head with rfl | ⟨next, first, rest⟩
  · exact here describes
  · exact below next first inner rest describes

theorem below (laidOut : ObjectsLaidOut types start schema) (under : schema.Below inner) :
    ObjectsLaidOut types start inner :=
  fun deeper inside => laidOut deeper (.head under inside)

theorem from_visit (laidOut : ObjectsLaidOut types visit schema) (led : Visits types start visit) :
    ObjectsLaidOut types start schema := by
  intro inner inside describes
  obtain ⟨origin, members, parts, visits, rest⟩ := laidOut inner inside describes
  exact ⟨origin, members, parts, led.trans visits, rest⟩

theorem of_silent (noObject : ¬ schema.DescribesObject)
    (silent : ∀ keyword ∈ Schema.holders, Mapping.get? schema keyword = none) :
    ObjectsLaidOut types start schema :=
  intro (fun describes => absurd describes noObject) fun _ under =>
    absurd under (Schema.not_below_of_silent silent)

theorem nil : ObjectsLaidOut types start [] :=
  of_silent (Schema.not_describesObject_of_untyped rfl) fun _ _ => rfl

theorem of_primitive {element : Element} {kind : Kind} (found : element.kind = some kind)
    (isPrimitive : kind.isPrimitive = true) :
    ObjectsLaidOut types start (Schema.ofPrimitive element) := by
  refine of_silent (fun describes => ?_) fun keyword among => ?_
  · have named : kind.name = "object" := by
      rw [← Element.name_of_primitive found isPrimitive]
      exact describes.name_of_string (Mapping.get?_cons_self ..)
    have other : kind.name ≠ "object" := by
      clear found named
      cases kind <;> revert isPrimitive <;> decide
    exact other named
  · exact Schema.ofPrimitive_keyword (fun same => absurd (same ▸ among) (by decide))
      fun same => absurd (same ▸ among) (by decide)

theorem of_choices (choices : List Element) :
    ObjectsLaidOut types start (Schema.ofChoices choices) :=
  of_silent (Schema.not_describesObject_of_untyped rfl) fun keyword among =>
    if_neg fun same => absurd (same ▸ among) (by decide)

/-- The description and the null of an element leave the layout as it is. -/
theorem finished {finished : Schema} (laidOut : ObjectsLaidOut types start schema)
    (form : schema.Form) {element : Element}
    (success : Schema.widenIfNullable element (Schema.describe element schema) = .ok finished) :
    ObjectsLaidOut types start finished := by
  refine intro (fun describes => ?_) fun inner under => laidOut.below (under.congr ?_)
  · obtain ⟨origin, members, parts, visits, leads, expands, own⟩ :=
      laidOut schema .refl (form.describesObject_of_finished success describes)
    exact ⟨origin, members, parts, visits, leads, expands,
      own.congr fun _ => form.get?_finished success⟩
  · have apart : ∀ other ∉ Schema.holders, ∀ keyword ∈ Schema.holders, keyword ≠ other :=
      fun other foreign keyword among same => foreign (same ▸ among)
    exact fun keyword among => form.get?_finished_of_ne success (apart _ (by decide) _ among)
      (apart _ (by decide) _ among) (apart _ (by decide) _ among)

/-- Items hold what the schemas of the children hold. -/
theorem of_itemsOf {schemas : List Schema} {items : Schema} (ofItems : Schema.ItemsOf schemas items)
    (each : ∀ schema ∈ schemas, ObjectsLaidOut types start schema) :
    ObjectsLaidOut types start items := by
  cases ofItems with
  | collapsed _ => exact each _ List.mem_cons_self
  | listed _ =>
    refine intro (fun describes => ?_) fun inner under => ?_
    · exact absurd describes (Schema.not_describesObject_of_untyped rfl)
    · cases under with
      | property found _ => cases found
      | items found => cases found
      | alternative found among =>
        cases found
        obtain ⟨schema, isItem, same⟩ := List.mem_map.mp among
        cases same
        exact each _ isItem

end ObjectsLaidOut

/-! ## Objects at every depth -/

section Depth

variable {steps depth : Nat}
  (each : ∀ element schema, renderSchemaWithin steps types depth element = .ok schema →
    ObjectsLaidOut types (.rendered element) schema)

include each

theorem Schema.ofArray_objectsLaidOut {element : Element} {schema : Schema}
    (kind : element.kind = some .array)
    (success : ofArray (renderSchemaWithin steps types depth) element.children = .ok schema) :
    ObjectsLaidOut types (.rendered element) schema := by
  obtain ⟨schemas, rendered, rfl⟩ := map_eq_ok_iff.mp success
  have children : ∀ schema ∈ schemas, ObjectsLaidOut types (.rendered element) schema := by
    intro schema isItem
    obtain ⟨child, among, shown⟩ := (exists_of_mapM_eq_ok rendered).2 schema isItem
    exact (each child schema shown).from_visit (.single (.item kind among))
  have quiet : ∀ keyword, keyword ≠ "type" → keyword ≠ "items" →
      Mapping.get? (("type", .string "array") :: itemSchema schemas) keyword = none :=
    fun _ => ofArray_keyword success
  refine .intro (fun describes => ?_) fun inner under => ?_
  · exact absurd (describes.name_of_string (Mapping.get?_cons_self ..)) (by decide)
  · cases under with
    | property found _ => rw [quiet _ (by decide) (by decide)] at found; cases found
    | alternative found _ => rw [quiet _ (by decide) (by decide)] at found; cases found
    | items found =>
      by_cases none : schemas = []
      · subst none
        cases found
      · obtain ⟨items, made, ofItems⟩ := exists_itemsOf none
        rw [made] at found
        cases found
        exact .of_itemsOf ofItems children

/-- The schema of a member holds what that of its value holds. -/
theorem Schema.memberSchema_objectsLaidOut {member : Element} {key : String} {schema : Schema}
    (slot : member.slot? = some key)
    (success : memberSchema (renderSchemaWithin steps types depth) member = .ok schema) :
    ObjectsLaidOut types (.listed member) schema := by
  obtain ⟨described, property, finishes⟩ := bind_eq_ok_iff.mp success
  unfold propertySchema at property
  split at property
  · rename_i value held
    obtain ⟨own, rendered, rfl⟩ := map_eq_ok_iff.mp property
    have ofValue := (each value own rendered).from_visit (.single (.value slot held))
    exact ofValue.finished (renderSchemaWithin_form rendered) finishes
  · cases property
    exact ObjectsLaidOut.nil.finished .nil finishes

/-- The definitions of a member hold what its value or its options hold. -/
theorem Schema.contribution_objectsLaidOut {member : Element} {added : ObjectParts} {name : String}
    {inner : Schema}
    (success : contribution (renderSchemaWithin steps types depth) member = .ok added)
    (among : (name, .object inner) ∈ added.properties) :
    ObjectsLaidOut types (.listed member) inner := by
  cases isContribution success with
  | optionSet isOptionSet rendered =>
    obtain ⟨schema, isOption, property⟩ := List.mem_flatMap.mp among
    obtain ⟨option, child, shown⟩ := (exists_of_mapM_eq_ok rendered).2 schema isOption
    have ofOption := (each option schema shown).from_visit (.single (.option isOptionSet child))
    exact ofOption.below (.of_propertiesOf property)
  | member slot shown _ =>
    cases List.mem_singleton.mp among
    exact memberSchema_objectsLaidOut each slot shown
  | other _ _ => cases among

theorem Schema.ofMembers_objectsLaidOut {element : Element} {members : List Element}
    {schema : Schema} (leads : RendersMembers types element members)
    (listed : ∀ member ∈ members, Step types (.rendered element) (.listed member))
    (success : ofMembers steps types (renderSchemaWithin steps types depth) members = .ok schema) :
    ObjectsLaidOut types (.rendered element) schema := by
  refine .intro (fun _ => ?_) fun inner under => ?_
  · obtain ⟨parts, expands, laidOut⟩ := exists_laidOut success
    exact ⟨element, members, parts, .refl, leads, expands, laidOut⟩
  · obtain ⟨expanded, added, expands, contributed, rfl⟩ := ofMembers_eq_ok_iff.mp success
    cases under with
    | items found => simp [ObjectParts.get?_toSchema] at found
    | alternative found _ => simp [ObjectParts.get?_toSchema] at found
    | property found among =>
      rw [ObjectParts.get?_toSchema, properties_foldl_append] at found
      cases found
      rcases Mapping.mem_overwrite among with impossible | defined
      · cases impossible
      obtain ⟨parts, isPart, property⟩ := List.mem_flatMap.mp defined
      obtain ⟨member, source, contributes⟩ := (exists_of_mapM_eq_ok contributed).2 parts isPart
      obtain ⟨-, given, known, visits⟩ := visited_of_mem_expandWithin expands member source
      exact (contribution_objectsLaidOut each contributes property).from_visit
        (.head (listed given known) visits)

end Depth

/-- In whatever is rendered, all object schemas are laid out: by cases on the kind, from the schemas one
level down. -/
theorem renderSchemaWithin_objectsLaidOut {steps depth : Nat} {element : Element} {schema : Schema}
    (success : renderSchemaWithin steps types depth element = .ok schema) :
    ObjectsLaidOut types (.rendered element) schema := by
  induction depth generalizing element schema with
  | zero => cases success
  | succ depth ih =>
    obtain ⟨body, contributed, form, finishes⟩ := exists_body_of_success success
    refine ObjectsLaidOut.finished ?_ form finishes
    have each : ∀ element schema, renderSchemaWithin steps types depth element = .ok schema →
        ObjectsLaidOut types (.rendered element) schema := fun _ _ => ih
    unfold Schema.ofKind at contributed
    split at contributed
    · cases contributed; exact .of_primitive ‹_› rfl
    · cases contributed; exact .of_primitive ‹_› rfl
    · cases contributed; exact .of_primitive ‹_› rfl
    · cases contributed
      exact .of_choices _
    · exact Schema.ofArray_objectsLaidOut each ‹_› contributed
    · rename_i kind
      exact Schema.ofMembers_objectsLaidOut each (.object (.inl kind))
        (fun _ child => .objectMember (.inl kind) child) contributed
    · rename_i kind
      exact Schema.ofMembers_objectsLaidOut each (.object (.inr kind))
        (fun _ child => .objectMember (.inr kind) child) contributed
    · rename_i kind
      refine Schema.ofMembers_objectsLaidOut each (.optionSet kind) (fun member single => ?_)
        contributed
      rw [List.mem_singleton.mp single]
      exact .optionSet kind
    · rename_i kind
      split at contributed
      · rename_i target found
        exact (ih contributed).from_visit (.single (.target kind found))
      · cases contributed
        exact .nil
    · cases contributed
      exact .nil
    · rename_i kind
      split at contributed
      · rename_i base found
        exact (ih contributed).from_visit (.single (.inherit kind found))
      · cases contributed
        exact .nil

/-- A parsed element has a schema wherever its rendering comes to an end, and every object schema inside
is laid out by the members of an element that is visited. -/
theorem object_schemas_laid_out {element : Element} {steps depth : Nat}
    (parsedTypes : types.Parsed) (parsed : element.Parsed)
    (ends : Settled (renderSchemaWithin steps types depth element)) :
    ∃ schema, renderSchemaWithin steps types depth element = .ok schema ∧
      ∀ inner, schema.Inside inner → inner.DescribesObject →
        LaidOutFrom types (.rendered element) inner := by
  obtain ⟨schema, success⟩ := exists_schema_of_settled parsedTypes parsed ends
  exact ⟨schema, success, renderSchemaWithin_objectsLaidOut success⟩

namespace Rows

/-! Rows with one key in two members and in an option. -/

def member (key name : String) (flags : List String) : Element :=
  ⟨"member", .member ⟨"string", .literal (.string key), [], []⟩ (some ⟨name, .absent, [], []⟩), [],
    [(flagsAttribute, .array (flags.map Json.string))]⟩

def option (key name : String) : Element := ⟨"option", .children [member key name []], [], []⟩

def row : Element :=
  ⟨"object", .children [member "a" "string" [requiredFlag],
    ⟨"select", .children [option "b" "string", option "a" "number"], [], []⟩,
    member "b" "boolean" [requiredFlag]], [], []⟩

def element : Element := ⟨"array", .children [row], [], []⟩

def memberNode (key name : String) (flags : List String) : Json :=
  .object [("element", .string "member"),
    ("attributes", .object [(flagsAttribute, .array (flags.map Json.string))]),
    ("content", .object
      [("key", .object [("element", .string "string"), ("content", .string key)]),
        ("value", .object [("element", .string name)])])]

def listNode (name : String) (items : List Json) : Json :=
  .object [("element", .string name), ("content", .array items)]

def node : Json :=
  listNode "array" [listNode "object" [memberNode "a" "string" [requiredFlag],
    listNode "select" [listNode "option" [memberNode "b" "string" []],
      listNode "option" [memberNode "a" "number" []]],
    memberNode "b" "boolean" [requiredFlag]]]

/-- The properties stand in the order of the first definitions, with the last types. -/
def rowSchema : Schema :=
  [("type", .string "object"),
    ("properties", .object [("a", .object [("type", .string "number")]),
      ("b", .object [("type", .string "boolean")])]),
    ("allOf", .array [Schema.exclusionClause ["b", "a"]]),
    ("required", .array [.string "a", .string "b"])]

theorem object_schemas_laid_out_rows :
    element.Parsed ∧
      renderSchema [] element = .ok [("type", .string "array"), ("items", .object rowSchema)] ∧
      LaidOutFrom [] (.rendered element) rowSchema := by
  have parsed : element.Parsed := ⟨node, by decide, rfl⟩
  have noTypes : SymbolTable.Parsed [] := fun _ declared => absurd declared List.not_mem_nil
  have rendered : renderSchemaWithin expansionSteps [] renderDepth element =
      .ok [("type", .string "array"), ("items", .object rowSchema)] := rfl
  have ends : Settled (renderSchemaWithin expansionSteps [] renderDepth element) := settled_ok _
  obtain ⟨schema, success, laidOut⟩ := object_schemas_laid_out noTypes parsed ends
  cases rendered.symm.trans success
  exact ⟨parsed, rendered, laidOut rowSchema (.single (.items rfl)) (.inl rfl)⟩

end Rows

end Mson
