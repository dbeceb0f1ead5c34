import Mson.Proofs.Schema.Contribution
import Mson.Proofs.Schema.Items

/-!
# The closed shape of rendered schemas

`Form` says which keywords a rendered schema may have; `Closed` says what it is, keyword by keyword, and
the same of the schemas that it holds. Apart from the description, which comes last, there are six
shapes (`Core`): nothing, a primitive with its default, a list of choices, an array without and with
items, and an object. The type of each may have null beside it.

Descriptions and nulls are put into a schema at every level, by a named type or a reference again and
again, so the shapes have to be closed under both (`Closed.describe`, `Closed.exists_widen`).
-/
namespace Mson

theorem Kind.name_ne_nullType (kind : Kind) : kind.name ≠ Schema.nullType := by
  cases kind <;> decide

namespace Schema

/-- A keyword, if it has a value. -/
def optionally (keyword : String) : Option Value → Schema
  | none => []
  | some value => [(keyword, value)]

/-- A keyword for a list, unless that is empty. -/
def listing (keyword : String) (items : List Value) : Schema :=
  if items.isEmpty then [] else [(keyword, .array items)]

/-- Whether a type is the one of the given name, by itself or with null beside it. -/
inductive Names (name : String) : Value → Prop
  | alone : Names name (.string name)
  | orNull : Names name (.array [.string name, .string nullType])

mutual

/-- The shapes of rendered schemas. -/
inductive Closed : Schema → Prop
  | mk {core : Schema} (closed : Core core) (description : Option Value) :
      Closed (core ++ optionally descriptionKeyword description)

/-- The shapes of rendered schemas without their description. -/
inductive Core : Schema → Prop
  | free : Core []
  | primitive {kind : Kind} {type : Value} (isPrimitive : kind.isPrimitive = true)
      (named : Names kind.name type) (default : Option Value) :
      Core (("type", type) :: optionally "default" default)
  | choices (items : List Value) : Core [("enum", .array items)]
  | emptyArray {type : Value} (named : Names Kind.array.name type) : Core [("type", type)]
  | array {type : Value} {schemas : List Schema} {items : Schema}
      (named : Names Kind.array.name type) (ofItems : ItemsOf schemas items)
      (each : ∀ schema ∈ schemas, Closed schema) : Core [("type", type), ("items", .object items)]
  | object {type : Value} {properties : Mapping Schema} (named : Names Kind.object.name type)
      (each : ∀ entry ∈ properties, Closed entry.2) (groups : List (List String))
      (required : List String) :
      Core (("type", type) :: ("properties", .object (Mapping.mapValues Value.object properties)) ::
        (listing "allOf" (groups.map exclusionClause) ++
          listing "required" (required.map Value.string)))

end

variable {schema : Schema}

/-! ## Description and null -/

theorem Core.closed (core : Core schema) : Closed schema := by
  simpa [optionally] using Closed.mk core none

theorem Core.not_mem_description (core : Core schema) :
    descriptionKeyword ∉ Mapping.names schema := by
  cases core with
  | primitive _ _ default => cases default <;> simp [optionally, descriptionKeyword]
  | object _ _ groups required =>
    cases groups <;> cases required <;> simp [listing, descriptionKeyword]
  | _ => simp [descriptionKeyword]

/-- A description is put behind everything else or in the place of an earlier one. -/
theorem Closed.describe (closed : Closed schema) (element : Element) :
    Closed (describe element schema) := by
  unfold Schema.describe
  split
  · rename_i text _
    obtain ⟨core, description⟩ := closed
    have placed : Mapping.put (optionally descriptionKeyword description) descriptionKeyword
        (.ofJson text) = optionally descriptionKeyword (some (.ofJson text)) := by
      cases description <;> rfl
    rw [Mapping.put_append_of_not_mem core.not_mem_description, placed]
    exact .mk core _
  · exact closed

/-- What widening finds first: nothing, choices, or a type that may just as well have null beside it. -/
inductive Core.Start : Schema → Prop
  | free : Start []
  | choices (items : List Value) : Start [("enum", .array items)]
  | typed {name : String} {type : Value} {rest : Schema} (notNull : name ≠ nullType)
      (named : Names name type)
      (orNull : Core (("type", .array [.string name, .string nullType]) :: rest)) :
      Start (("type", type) :: rest)

theorem Core.start (core : Core schema) : Core.Start schema := by
  cases core with
  | free => exact .free
  | choices items => exact .choices items
  | primitive isPrimitive named default =>
    exact .typed (Kind.name_ne_nullType _) named (.primitive isPrimitive .orNull default)
  | emptyArray named => exact .typed (Kind.name_ne_nullType _) named (.emptyArray .orNull)
  | array named ofItems each =>
    exact .typed (Kind.name_ne_nullType _) named (.array .orNull ofItems each)
  | object named each groups required =>
    exact .typed (Kind.name_ne_nullType _) named (.object .orNull each groups required)

theorem get?_optionally_of_ne {keyword wanted : String} (other : wanted ≠ keyword)
    (value : Option Value) : Mapping.get? (optionally keyword value) wanted = none := by
  cases value with
  | none => rfl
  | some value => exact if_neg (Ne.symm other)

theorem widen_names {name : String} {type : Value} (notNull : name ≠ nullType)
    (named : Names name type) (rest : Schema) :
    widen (("type", type) :: rest) =
      .ok (("type", .array [.string name, .string nullType]) :: rest) := by
  cases named with
  | alone => simp only [widen, Mapping.get?_cons_self, if_neg notNull, Mapping.put, if_pos]
  | orNull => exact widen_nullable (Mapping.get?_cons_self ..)

theorem widen_choices (items : List Value) (description : Option Value) :
    widen ([("enum", .array items)] ++ optionally descriptionKeyword description) =
      .ok ([("enum", .array (if items.any Value.isNull then items else items ++ [.null]))] ++
        optionally descriptionKeyword description) := by
  have alone : ∀ keyword, keyword ≠ "enum" → keyword ≠ descriptionKeyword →
      Mapping.get? ([("enum", .array items)] ++ optionally descriptionKeyword description) keyword =
        none := by
    intro keyword noEnum noDescription
    rw [List.singleton_append, Mapping.get?_cons, if_neg (Ne.symm noEnum),
      get?_optionally_of_ne noDescription]
  have listed : Mapping.get? ([("enum", .array items)] ++ optionally descriptionKeyword description)
      "enum" = some (.array items) := rfl
  rw [widen_enumerated listed alone]
  split <;> rfl

/-- A closed schema can be widened, and stays closed. -/
theorem Closed.exists_widen (closed : Closed schema) :
    ∃ widened, widen schema = .ok widened ∧ Closed widened := by
  obtain ⟨core, description⟩ := closed
  cases core.start with
  | free =>
    exact ⟨_, widen_unconstrained fun keyword other => get?_optionally_of_ne other description,
      .mk .free description⟩
  | choices items => exact ⟨_, widen_choices items description, .mk (.choices _) description⟩
  | typed notNull named orNull => exact ⟨_, widen_names notNull named _, .mk orNull description⟩

theorem Closed.widenIfNullable {widened : Schema} (closed : Closed schema) {element : Element}
    (success : widenIfNullable element schema = .ok widened) : Closed widened := by
  rcases eq_or_widen_of_widenIfNullable success with rfl | widens
  · exact closed
  · obtain ⟨result, succeeds, stays⟩ := closed.exists_widen
    cases succeeds.symm.trans widens
    exact stays

/-! ## What the kinds contribute -/

theorem ofPrimitive_closed {element : Element} {kind : Kind} (found : element.kind = some kind)
    (isPrimitive : kind.isPrimitive = true) : Closed (ofPrimitive element) := by
  unfold ofPrimitive
  rw [Element.name_of_primitive found isPrimitive]
  split
  · exact (Core.primitive isPrimitive .alone none).closed
  · exact (Core.primitive isPrimitive .alone none).closed
  · exact (Core.primitive isPrimitive .alone (some _)).closed

/-- Whether all properties are closed schemas. -/
def ClosedProperties (properties : Mapping Value) : Prop :=
  ∀ entry ∈ properties, ∃ schema : Schema, entry.2 = .object schema ∧ schema.Closed

theorem ObjectParts.toSchema_closed {parts : ObjectParts} (each : ClosedProperties parts.properties) :
    Closed parts.toSchema := by
  obtain ⟨properties, same, closed⟩ := Mapping.exists_mapValues each
  have shown : parts.toSchema = ("type", .string Kind.object.name) ::
      ("properties", .object (Mapping.mapValues Value.object properties)) ::
        (listing "allOf" (parts.exclusive.map exclusionClause) ++
          listing "required" (parts.required.map Value.string)) := by
    rw [← same]
    simp only [toSchema, listing, List.isEmpty_map]
    rfl
  rw [shown]
  exact (Core.object .alone closed _ _).closed

theorem Core.closedProperties {properties : Mapping Value} (core : Core schema)
    (among : ("properties", .object properties) ∈ schema) : ClosedProperties properties := by
  cases core with
  | @object _ inner _ each groups required =>
    have same : properties = Mapping.mapValues Value.object inner := by
      cases groups <;> cases required <;> simpa [listing] using among
    rw [same]
    intro entry listed
    obtain ⟨source, isSource, rfl⟩ := List.mem_map.mp listed
    exact ⟨source.2, rfl, each source isSource⟩
  | primitive _ _ default => cases default <;> simp [optionally] at among
  | _ => simp at among

theorem Closed.closedProperties (closed : Closed schema) : ClosedProperties (propertiesOf schema) := by
  unfold propertiesOf
  split
  · rename_i properties found
    obtain ⟨core, description⟩ := closed
    refine core.closedProperties ?_
    rcases List.mem_append.mp (Mapping.mem_of_get? found) with inCore | described
    · exact inCore
    · cases description <;> simp [optionally, descriptionKeyword] at described
  · exact fun _ impossible => absurd impossible List.not_mem_nil

section Rendered

variable {render : Element → Except RenderFault Schema}
  (rendered : ∀ element schema, render element = .ok schema → schema.Closed)

include rendered

theorem ofArray_closed {items : List Element} (success : ofArray render items = .ok schema) :
    Closed schema := by
  obtain ⟨schemas, each, rfl⟩ := map_eq_ok_iff.mp success
  have closed : ∀ schema ∈ schemas, Closed schema := by
    intro schema among
    obtain ⟨item, -, shown⟩ := (exists_of_mapM_eq_ok each).2 schema among
    exact rendered item schema shown
  by_cases none : schemas = []
  · subst none
    exact (Core.emptyArray .alone).closed
  · obtain ⟨items, made, ofItems⟩ := exists_itemsOf none
    rw [made]
    exact (Core.array .alone ofItems closed).closed

theorem propertySchema_closed {member : Element}
    (success : propertySchema render member = .ok schema) : Closed schema := by
  unfold propertySchema at success
  split at success
  · obtain ⟨own, shown, rfl⟩ := map_eq_ok_iff.mp success
    exact (rendered _ own shown).describe member
  · cases success
    exact Core.free.closed.describe member

theorem contribution_closed {member : Element} {added : ObjectParts}
    (success : contribution render member = .ok added) : ClosedProperties added.properties := by
  intro entry among
  cases isContribution success with
  | optionSet _ options =>
    obtain ⟨option, isOption, defined⟩ := List.mem_flatMap.mp among
    obtain ⟨child, -, shown⟩ := (exists_of_mapM_eq_ok options).2 option isOption
    exact (rendered child option shown).closedProperties entry defined
  | member _ shown _ =>
    obtain ⟨described, property, finishes⟩ := bind_eq_ok_iff.mp shown
    rw [List.mem_singleton.mp among]
    exact ⟨_, rfl, (propertySchema_closed rendered property).widenIfNullable finishes⟩
  | other _ _ => cases among

theorem ofMembers_closed {steps : Nat} {types : SymbolTable} {members : List Element}
    (success : ofMembers steps types render members = .ok schema) : Closed schema := by
  obtain ⟨expanded, added, -, contributed, rfl⟩ := ofMembers_eq_ok_iff.mp success
  refine ObjectParts.toSchema_closed fun entry among => ?_
  -- Of definitions with one name the last one is left, but each of them is closed.
  rw [properties_foldl_append] at among
  have defined := (Mapping.mem_overwrite among).resolve_left List.not_mem_nil
  obtain ⟨part, isPart, property⟩ := List.mem_flatMap.mp defined
  obtain ⟨member, -, success⟩ := (exists_of_mapM_eq_ok contributed).2 part isPart
  exact contribution_closed rendered success entry property

theorem ofKind_closed {steps : Nat} {types : SymbolTable} {element : Element}
    (success : ofKind steps types render element = .ok schema) : Closed schema := by
  unfold ofKind at success
  split at success
  · cases success; exact ofPrimitive_closed ‹_› rfl
  · cases success; exact ofPrimitive_closed ‹_› rfl
  · cases success; exact ofPrimitive_closed ‹_› rfl
  · cases success; exact (Core.choices _).closed
  · exact ofArray_closed rendered success
  · exact ofMembers_closed rendered success
  · exact ofMembers_closed rendered success
  · exact ofMembers_closed rendered success
  · split at success
    · exact rendered _ _ success
    · cases success; exact Core.free.closed
  · cases success; exact Core.free.closed
  · split at success
    · exact rendered _ _ success
    · cases success; exact Core.free.closed

end Rendered

end Schema

/-- Every rendered schema is closed: by induction on the depth, since description and null keep it so. -/
theorem renderSchemaWithin_closed {steps : Nat} {types : SymbolTable} {depth : Nat}
    {element : Element} {schema : Schema}
    (success : renderSchemaWithin steps types depth element = .ok schema) : schema.Closed := by
  induction depth generalizing element schema with
  | zero => cases success
  | succ depth ih =>
    obtain ⟨body, contributed, -, finishes⟩ := exists_body_of_success success
    have closed : body.Closed := Schema.ofKind_closed (fun _ _ => ih) contributed
    exact (closed.describe element).widenIfNullable finishes

end Mson
