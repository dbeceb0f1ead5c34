import Mathlib.Tactic.ByContra
import Mathlib.Tactic.Choose
import Mathlib.Tactic.Push
import Mson.Proofs.Rendering.Exclusion
import Mson.Proofs.Schema.Object

/-!
# Option sets that are enforced

An option set gives an object the properties of all its options, whether it is a member itself, comes
from a mixin, or stands in an option of another set (`OptionSetWithin`). The schema has a clause for
each set among the expanded members, and none for the sets in their options: of an option only the
properties are taken over. An object is thus accepted if its properties are, if each listed set has a
name that is missing, and if the required names are there (`RendersMembers.accepts_iff`). What this
makes of a set within an option is `option_set_excluded_iff`: the object that has all properties of
the set is refused only if a listed set, together with what is required, offers no others, or if one
of the properties has no value.
-/
namespace Mson

variable {types : SymbolTable}

/-- Whether an option of the set has a property of the given name. -/
def Offers (types : SymbolTable) (group : Element) (name : String) : Prop :=
  ∃ option ∈ group.children, Declares types option name

/-- The option sets that an object with the given members has its properties from. -/
inductive OptionSetWithin (types : SymbolTable) : List Element → Element → Prop
  | listed {steps : Nat} {members expanded : List Element} {group : Element}
      (expands : expandWithin types steps members = some expanded) (among : group ∈ expanded)
      (isOptionSet : group.isOptionSet = true) : OptionSetWithin types members group
  | nested {steps : Nat} {members expanded inner : List Element} {outer option group : Element}
      (expands : expandWithin types steps members = some expanded) (among : outer ∈ expanded)
      (isOptionSet : outer.isOptionSet = true) (isOption : option ∈ outer.children)
      (leads : RendersMembers types option inner) (below : OptionSetWithin types inner group) :
      OptionSetWithin types members group

/-- The names that an object schema requires. -/
def Schema.requiredOf (schema : Schema) : List String :=
  match Mapping.get? schema "required" with
  | some (.array names) => names.filterMap fun
      | .string name => some name
      | _ => none
  | _ => []

@[simp] theorem Schema.requiredOf_toSchema (parts : ObjectParts) :
    requiredOf parts.toSchema = parts.required := by
  unfold requiredOf
  rw [parts.get?_toSchema]
  by_cases none : parts.required = []
  · simp [none]
  · simp only [String.reduceEq, if_false, false_and, none, ne_eq, not_false_eq_true, and_self, if_true,
      List.filterMap_map]
    exact List.filterMap_some

theorem Schema.requiredOf_congr {schema other : Schema}
    (kept : ∀ keyword ∈ memberKeywords, Mapping.get? schema keyword = Mapping.get? other keyword) :
    requiredOf schema = requiredOf other := by
  unfold requiredOf
  rw [kept "required" (by decide)]

/-! ## Objects that are accepted -/

/-- Whether an object has values for its properties that the schema accepts, lacks a name of every set
among the expanded members, and has the names that the schema requires. -/
structure FitsObject (types : SymbolTable) (schema : Schema) (expanded : List Element)
    (entries : Mapping Json) : Prop where
  properties : ∀ name item, Mapping.get? entries name = some item → ∀ property,
    Mapping.get? (Schema.propertiesOf schema) name = some property → property.Accepts item
  exclusive : ∀ group ∈ expanded, group.isOptionSet = true →
    ∃ name, Offers types group name ∧ name ∉ Mapping.names entries
  required : ∀ name ∈ schema.requiredOf, name ∈ Mapping.names entries

/-- A set among the members excludes the names that its options declare. -/
theorem Schema.exists_exclusive {steps depth : Nat} {group : Element} {added : ObjectParts}
    (success : contribution (renderSchemaWithin steps types depth) group = .ok added)
    (isOptionSet : group.isOptionSet = true) : ∃ names, names ∈ added.exclusive := by
  obtain ⟨options, -, rfl⟩ := contribution_of_isOptionSet isOptionSet success
  exact ⟨_, List.mem_singleton_self _⟩

theorem ObjectSchema.accepts_iff {members : List Element} {schema : Schema}
    (object : ObjectSchema types members schema) :
    ∃ steps expanded, expandWithin types steps members = some expanded ∧
      ∀ entries, schema.Accepts (.object entries) ↔ FitsObject types schema expanded entries := by
  obtain ⟨steps, depth, success⟩ := object
  obtain ⟨expanded, added, expands, contributed, rfl⟩ := Schema.ofMembers_eq_ok_iff.mp success
  obtain ⟨forth, back⟩ := exists_of_mapM_eq_ok contributed
  refine ⟨steps, expanded, expands, fun entries => ?_⟩
  rw [Schema.ObjectParts.accepts_toSchema_iff, Schema.exclusive_foldl_append, List.nil_append]
  constructor
  · rintro ⟨properties, exclusive, required⟩
    refine ⟨by simpa using properties, fun group among isOptionSet => ?_, by simpa using required⟩
    obtain ⟨parts, isPart, ofGroup⟩ := forth group among
    obtain ⟨names, excluded⟩ := Schema.exists_exclusive ofGroup isOptionSet
    obtain ⟨name, named, missing⟩ := exclusive names (List.mem_flatMap.mpr ⟨parts, isPart, excluded⟩)
    exact ⟨name, ((Schema.mem_exclusive ofGroup excluded).2 name).mp named, missing⟩
  · rintro ⟨properties, exclusive, required⟩
    refine ⟨by simpa using properties, fun names excluded => ?_, by simpa using required⟩
    obtain ⟨parts, isPart, among⟩ := List.mem_flatMap.mp excluded
    obtain ⟨group, source, ofGroup⟩ := back parts isPart
    obtain ⟨isOptionSet, offered⟩ := Schema.mem_exclusive ofGroup among
    obtain ⟨name, offers, missing⟩ := exclusive group source isOptionSet
    exact ⟨name, (offered name).mpr offers, missing⟩

/-- What an element has of the schema that its members make. -/
structure Schema.KeepsObject (schema body : Schema) : Prop where
  keywords : ∀ keyword ∈ memberKeywords, Mapping.get? schema keyword = Mapping.get? body keyword
  accepts : ∀ entries, schema.Accepts (.object entries) ↔ body.Accepts (.object entries)

theorem Schema.KeepsObject.trans {first second third : Schema} (one : first.KeepsObject second)
    (other : second.KeepsObject third) : first.KeepsObject third :=
  ⟨fun keyword made => (one.keywords keyword made).trans (other.keywords keyword made),
    fun entries => (one.accepts entries).trans (other.accepts entries)⟩

theorem Schema.Form.keepsObject {element : Element} {body schema : Schema} (form : body.Form)
    (finished : Schema.widenIfNullable element (Schema.describe element body) = .ok schema) :
    schema.KeepsObject body :=
  ⟨fun _ made => form.get?_finished finished made,
    fun _ => form.accepts_finished_iff finished nofun⟩

/-- The schema of an element that is rendered as an object accepts the objects that fit it. -/
theorem RendersMembers.accepts_iff {element : Element} {members : List Element} {schema : Schema}
    (leads : RendersMembers types element members) (shown : ShowsSchema types element schema) :
    ∃ steps expanded, expandWithin types steps members = some expanded ∧
      ∀ entries, schema.Accepts (.object entries) ↔ FitsObject types schema expanded entries := by
  obtain ⟨inner, object, kept⟩ : ∃ inner, ObjectSchema types members inner ∧ schema.KeepsObject inner :=
    exists_objectSchema Schema.Form.keepsObject Schema.KeepsObject.trans leads shown
  obtain ⟨steps, expanded, expands, accepts⟩ := object.accepts_iff
  refine ⟨steps, expanded, expands, fun entries => ?_⟩
  rw [kept.accepts, accepts]
  have properties := Schema.propertiesOf_congr kept.keywords
  have required := Schema.requiredOf_congr kept.keywords
  constructor
  · rintro ⟨fits, exclusive, needed⟩
    exact ⟨properties ▸ fits, exclusive, required ▸ needed⟩
  · rintro ⟨fits, exclusive, needed⟩
    exact ⟨properties ▸ fits, exclusive, required ▸ needed⟩

/-! ## What sets offer -/

/-- A set among the members has a schema for each option, and the object has all their properties. -/
theorem ObjectSchema.of_listed {steps : Nat} {members expanded : List Element} {schema : Schema}
    {group : Element} (object : ObjectSchema types members schema)
    (expands : expandWithin types steps members = some expanded) (among : group ∈ expanded)
    (isOptionSet : group.isOptionSet = true) :
    ∀ option ∈ group.children, ∃ shown, ShowsSchema types option shown ∧
      ∀ name ∈ Mapping.names (Schema.propertiesOf shown),
        name ∈ Mapping.names (Schema.propertiesOf schema) := by
  obtain ⟨more, depth, success⟩ := object
  obtain ⟨others, added, expandsToo, contributed, rfl⟩ := Schema.ofMembers_eq_ok_iff.mp success
  obtain rfl : expanded = others := expandWithin_unique expands expandsToo
  obtain ⟨parts, isPart, ofGroup⟩ := (exists_of_mapM_eq_ok contributed).1 group among
  obtain ⟨options, rendered, rfl⟩ := Schema.contribution_of_isOptionSet isOptionSet ofGroup
  intro option isOption
  obtain ⟨shown, listed, success⟩ := (exists_of_mapM_eq_ok rendered).1 option isOption
  refine ⟨shown, ⟨more, depth, success⟩, fun name named => ?_⟩
  rw [propertiesOf_contributed, Mapping.mem_names_overwrite, Schema.mem_names_flatMap]
  exact .inr ⟨_, isPart, Schema.mem_names_flatMap.mpr ⟨shown, listed, named⟩⟩

/-- All that a set offers is a property of the object, at every depth. -/
theorem OptionSetWithin.offered {members : List Element} {group : Element} {schema : Schema}
    (within : OptionSetWithin types members group) (object : ObjectSchema types members schema) :
    (∀ option ∈ group.children, ∃ shown, ShowsSchema types option shown) ∧
      ∀ name, Offers types group name → name ∈ Mapping.names (Schema.propertiesOf schema) := by
  induction within generalizing schema with
  | listed expands among isOptionSet =>
    have each := object.of_listed expands among isOptionSet
    refine ⟨fun option isOption => (each option isOption).imp fun _ => And.left, ?_⟩
    rintro name ⟨option, isOption, shown, ofOption, named⟩
    obtain ⟨other, sameOption, merged⟩ := each option isOption
    exact merged name (ofOption.unique sameOption ▸ named)
  | nested expands among isOptionSet isOption leads _ ih =>
    obtain ⟨shown, ofOption, merged⟩ := object.of_listed expands among isOptionSet _ isOption
    obtain ⟨inner, objectOfOption, kept⟩ := leads.objectSchema ofOption
    obtain ⟨shows_, offered⟩ := ih objectOfOption
    refine ⟨shows_, fun name offers => merged name ?_⟩
    rw [Schema.propertiesOf_congr kept]
    exact offered name offers

theorem OptionSetWithin.isOptionSet {members : List Element} {group : Element}
    (within : OptionSetWithin types members group) : group.isOptionSet = true := by
  induction within with
  | listed _ _ isOptionSet => exact isOptionSet
  | nested _ _ _ _ _ _ ih => exact ih

/-! ## Sets that are enforced -/

/-- Whether a schema refuses all objects that have every property of a set. -/
def Excludes (types : SymbolTable) (schema : Schema) (group : Element) : Prop :=
  ∀ entries, (Json.object entries).WellFormed →
    (∀ name, Offers types group name → name ∈ Mapping.names entries) →
    ¬ schema.Accepts (.object entries)

/-- The names that are there if an object with every property of a set is accepted. -/
def Forced (types : SymbolTable) (schema : Schema) (group : Element) (name : String) : Prop :=
  Offers types group name ∨ name ∈ schema.requiredOf

/-- Why a schema refuses the objects that have every property of a set. -/
inductive Refusal (types : SymbolTable) (schema : Schema) (expanded : List Element)
    (group : Element) : Prop
  /-- A set among the members has no property besides. -/
  | covers {outer : Element} (among : outer ∈ expanded) (isOptionSet : outer.isOptionSet = true)
      (covered : ∀ name, Offers types outer name → Forced types schema group name) :
      Refusal types schema expanded group
  /-- There is no value for one of the properties. -/
  | empty {name : String} {property : Value} (forced : Forced types schema group name)
      (declared : Mapping.get? (Schema.propertiesOf schema) name = some property)
      (refuses : ∀ json : Json, json.WellFormed → ¬ property.Accepts json) :
      Refusal types schema expanded group

section Excludes

variable {schema : Schema} {expanded : List Element} {group : Element}

theorem exists_value_of_not_refusal (noRefusal : ¬ Refusal types schema expanded group)
    (name : String) :
    ∃ json : Json, json.WellFormed ∧ ∀ property, Forced types schema group name →
      Mapping.get? (Schema.propertiesOf schema) name = some property → property.Accepts json := by
  by_contra noValue
  push Not at noValue
  obtain ⟨property, forced, declared, -⟩ := noValue .null trivial
  refine noRefusal (.empty forced declared fun json wellFormed accepted => ?_)
  obtain ⟨other, -, same, refused⟩ := noValue json wellFormed
  rw [declared] at same
  cases same
  exact refused accepted

variable (accepts : ∀ entries,
  schema.Accepts (.object entries) ↔ FitsObject types schema expanded entries)

include accepts

theorem Refusal.excludes (refusal : Refusal types schema expanded group) :
    Excludes types schema group := by
  intro entries wellFormed offered accepted
  have fits := (accepts entries).mp accepted
  have present : ∀ name, Forced types schema group name → name ∈ Mapping.names entries := by
    rintro name (offers | required)
    · exact offered name offers
    · exact fits.required name required
  cases refusal with
  | covers among isOptionSet covered =>
    obtain ⟨name, offers, missing⟩ := fits.exclusive _ among isOptionSet
    exact missing (present name (covered name offers))
  | empty forced declared refuses =>
    obtain ⟨item, found⟩ := Mapping.exists_get?_iff.mpr (present _ forced)
    exact refuses item (Json.wellFormed_of_get? wellFormed.2 found)
      (fits.properties _ item found _ declared)

/-- The object that has the forced names only is accepted if it can be. -/
theorem refusal_of_excludes
    (offered : ∀ name, Offers types group name → name ∈ Mapping.names (Schema.propertiesOf schema))
    (excludes : Excludes types schema group) : Refusal types schema expanded group := by
  classical
  by_contra noRefusal
  choose item wellFormed accepted using exists_value_of_not_refusal noRefusal
  obtain ⟨entries, wellFormedObject, named, values⟩ := @Json.exists_object
    ((Mapping.names (Schema.propertiesOf schema)).filter (fun name => Offers types group name) ++
      schema.requiredOf) item fun name _ => wellFormed name
  have forced : ∀ name, name ∈ Mapping.names entries ↔ Forced types schema group name := by
    intro name
    rw [named, List.mem_append, List.mem_filter, decide_eq_true_iff, Forced]
    exact or_congr_left (and_iff_right_of_imp (offered name))
  refine excludes entries wellFormedObject (fun name offers => (forced name).mpr (.inl offers))
    ((accepts entries).mpr ⟨fun name value found property declared => ?_,
      fun outer among isOptionSet => ?_, fun name required => (forced name).mpr (.inr required)⟩)
  · rw [values name value found]
    exact accepted name property ((forced name).mp (Mapping.mem_names_of_get? found)) declared
  · by_contra allThere
    push Not at allThere
    exact noRefusal (.covers among isOptionSet fun name offers =>
      (forced name).mp (allThere name offers))

end Excludes

/-- What becomes of an option set that an object has its properties from. -/
structure OptionSetKept (types : SymbolTable) (schema : Schema) (expanded : List Element)
    (group : Element) : Prop where
  shown : ∀ option ∈ group.children, ∃ ofOption, ShowsSchema types option ofOption
  offered : ∀ name, Offers types group name → name ∈ Mapping.names (Schema.propertiesOf schema)
  /-- A set among the members is enforced. -/
  listed : group ∈ expanded → Excludes types schema group
  /-- A set in an option is enforced where another one does it, or where a property has no value. -/
  exact : Excludes types schema group ↔ Refusal types schema expanded group

/-- The schema of an object refuses what has all properties of an option set if the set is a member or
comes from a mixin. If it stands in an option, the schema does so exactly if a listed set offers nothing
besides the names of this one and the required ones, or if one of these names has no value. -/
theorem option_set_excluded_iff {element group : Element} {members : List Element}
    (leads : RendersMembers types element members) (within : OptionSetWithin types members group) :
    (∀ steps depth, types.Parsed → element.Parsed →
      Settled (renderSchemaWithin steps types depth element) →
        ∃ schema, renderSchemaWithin steps types depth element = .ok schema) ∧
    ∀ schema, ShowsSchema types element schema →
      ∃ steps expanded, expandWithin types steps members = some expanded ∧
        OptionSetKept types schema expanded group := by
  refine ⟨fun steps depth parsedTypes parsed => exists_schema_of_settled parsedTypes parsed,
    fun schema shown => ?_⟩
  obtain ⟨steps, expanded, expands, accepts⟩ := leads.accepts_iff shown
  obtain ⟨inner, object, kept⟩ := leads.objectSchema shown
  obtain ⟨shows_, offered⟩ := within.offered object
  rw [← Schema.propertiesOf_congr kept] at offered
  refine ⟨steps, expanded, expands, shows_, offered, fun among => ?_, ?_⟩
  · exact Refusal.excludes accepts (.covers among within.isOptionSet fun _ => .inl)
  · exact ⟨refusal_of_excludes accepts offered, Refusal.excludes accepts⟩

namespace NestedOptions

/-! Either one of two names, or a third one. -/

def inner : Element :=
  ⟨"select", .children [OptionGroup.option "a", OptionGroup.option "b"], [], []⟩

def outer : Element :=
  ⟨"select", .children [⟨"option", .children [inner], [], []⟩, OptionGroup.option "c"], [], []⟩

def element : Element := ⟨"object", .children [outer], [], []⟩

def optionNode (items : List Json) : Json :=
  .object [("element", .string "option"), ("content", .array items)]

def memberNode (key : String) : Json :=
  .object [("element", .string "member"), ("content", .object
    [("key", .object [("element", .string "string"), ("content", .string key)]),
      ("value", .object [("element", .string "string")])])]

def selectNode (options : List Json) : Json :=
  .object [("element", .string "select"), ("content", .array options)]

def node : Json :=
  .object [("element", .string "object"), ("content", .array
    [selectNode [optionNode [selectNode [optionNode [memberNode "a"], optionNode [memberNode "b"]]],
      optionNode [memberNode "c"]]])]

def text : Value := .object [("type", .string "string")]

def schema : Schema :=
  Schema.ObjectParts.toSchema ⟨[("a", text), ("b", text), ("c", text)], [["a", "b", "c"]], []⟩

theorem rendered : renderSchema [] element = .ok schema := rfl

theorem expands : expandWithin [] 1 element.children = some [outer] := rfl

/-- The outer set is enforced. -/
theorem option_set_excluded_outer : Excludes [] schema outer := by
  have within : OptionSetWithin [] element.children outer :=
    .listed expands (List.mem_singleton_self _) (by decide)
  obtain ⟨-, kept⟩ := option_set_excluded_iff (.object (.inl (by decide))) within
  obtain ⟨steps, expanded, expandsToo, kept⟩ := kept schema ⟨_, _, rendered⟩
  refine kept.listed ?_
  rw [expandWithin_unique expandsToo expands]
  exact List.mem_singleton_self _

theorem shows_option (key : String) : ShowsSchema [] (OptionGroup.option key)
    [("type", .string "object"), ("properties", .object [(key, text)])] :=
  ⟨1, 3, rfl⟩

theorem offers_inner {name : String} : Offers [] inner name ↔ name = "a" ∨ name = "b" := by
  have declares : ∀ key, Declares [] (OptionGroup.option key) name ↔ name = key := by
    intro key
    constructor
    · rintro ⟨shown, ofOption, named⟩
      rw [ofOption.unique (shows_option key)] at named
      exact List.mem_singleton.mp named
    · rintro rfl
      exact ⟨_, shows_option name, List.mem_singleton_self _⟩
  rw [← declares "a", ← declares "b"]
  simp [Offers, inner, Element.children]

/-- The inner set is not: both of its names are accepted together. -/
theorem option_set_lost_nested :
    element.Parsed ∧ OptionSetWithin [] element.children inner ∧ inner.children.length = 2 ∧
      renderSchema [] element = .ok schema ∧ Offers [] inner "a" ∧ Offers [] inner "b" ∧
      ∃ entries, (Json.object entries).WellFormed ∧
        (∀ name, Offers [] inner name → name ∈ Mapping.names entries) ∧
        schema.Accepts (.object entries) := by
  have listed : OptionSetWithin [] [inner] inner :=
    .listed (show expandWithin [] 1 [inner] = some [inner] from rfl) (List.mem_singleton_self _)
      (by decide)
  have within : OptionSetWithin [] element.children inner :=
    .nested expands (List.mem_singleton_self _) (by decide) List.mem_cons_self
      (.object (.inr (by decide))) listed
  refine ⟨⟨node, by decide, rfl⟩, within, rfl, rendered, offers_inner.mpr (.inl rfl),
    offers_inner.mpr (.inr rfl), [("a", .string ""), ("b", .string "")], by decide,
    fun name offers => ?_, Schema.ObjectParts.accepts_toSchema_iff.mpr ⟨?_, by decide, by decide⟩⟩
  · rcases offers_inner.mp offers with rfl | rfl <;> decide
  · have acceptsText : text.Accepts (.string "") := by
      simp [text, Value.accepts_object_iff, Mapping.get?_cons, Json.HasType]
    intro name item found property declared
    have isEmpty : item = .string "" := by
      have entry := Mapping.mem_of_get? found
      simp only [List.mem_cons, Prod.mk.injEq, List.not_mem_nil, or_false] at entry
      exact entry.elim And.right And.right
    have isText : property = text := by
      have entry := Mapping.mem_of_get? declared
      simp only [List.mem_cons, Prod.mk.injEq, List.not_mem_nil, or_false] at entry
      exact entry.elim And.right fun entry => entry.elim And.right And.right
    rw [isEmpty, isText]
    exact acceptsText

end NestedOptions

end Mson
