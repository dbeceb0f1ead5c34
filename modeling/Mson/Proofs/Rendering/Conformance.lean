import Mson.Proofs.JsonForm
import Mson.Proofs.Rendering.Result
import Mson.Proofs.Rendering.Success
import Mson.Proofs.Schema.Items
import Mson.Proofs.Schema.Object

/-!
# Examples conform to schemas

The schema and the example of an element are put together by two functions that know nothing of each
other. `Conforms` is what relates their results at every depth: the example has a JSON form that the
schema accepts, and where there is nothing to show the schema accepts everything. The second half
carries the first through objects: of members with one key the last definition makes the schema and
the last one that shows anything makes the example, so the definitions in between must not constrain.

Over the members of one object both functions are folds, and `MembersConform` relates their states.
-/
namespace Mson

/-! ## JSON forms -/

/-- The scalars of a primitive type are their own JSON form. -/
theorem Json.HasType.toJson?_ofJson {json : Json} {kind : Kind} (typed : json.HasType kind.name)
    (primitive : kind.isPrimitive = true) :
    (Value.ofJson json).toJson? = some json ∧ (Value.ofJson json).isNull = false := by
  cases kind <;> cases primitive <;> cases json <;>
    first
    | exact ⟨rfl, rfl⟩
    | simp [Json.HasType, Kind.name] at typed

/-! ## Acceptance by kind -/

namespace Schema

theorem accepts_nil (json : Json) : Schema.Accepts [] json := by
  rw [accepts_iff]
  intro _ _ found
  cases found

theorem accepts_ofPrimitive_iff {element : Element} {json : Json} :
    (ofPrimitive element).Accepts json ↔ json.HasType element.name := by
  have declared : Mapping.get? (ofPrimitive element) "type" = some (.string element.name) :=
    Mapping.get?_cons_self ..
  rw [accepts_iff_type declared, Value.holds_type_string, and_iff_left]
  intro keyword value noType found
  unfold ofPrimitive at found
  rw [Mapping.get?_cons, if_neg (Ne.symm noType)] at found
  split at found
  · cases found
  · cases found
  · rw [Mapping.get?_cons] at found
    split at found
    · rename_i isDefault
      exact isDefault ▸ Value.holds_of_annotation (by decide) value
    · cases found

theorem accepts_ofItems {schemas : List Schema} {items : List Json}
    (each : ∀ item ∈ items, ∃ schema ∈ schemas, schema.Accepts item) :
    Schema.Accepts (("type", .string "array") :: itemSchema schemas) (.array items) := by
  have typed : Value.Holds "type" (.string "array") (.array items) := Value.holds_type_string.mpr rfl
  rw [accepts_iff]
  intro keyword value found
  rw [Mapping.get?_cons] at found
  split at found
  · rename_i isType
    cases found
    exact isType ▸ typed
  · by_cases none : schemas = []
    · subst none
      cases found
    · obtain ⟨common, same, ofItems⟩ := exists_itemsOf none
      rw [same, Mapping.get?_cons] at found
      split at found
      · rename_i isItems
        subst isItems
        cases found
        rw [Value.holds_items]
        exact fun item member => ofItems.accepts_iff.mpr (each item member)
      · cases found

end Schema

/-! ## Conformance -/

/-- How the schema and the example of one element go together. -/
structure Conforms (schema : Schema) (example_ : Value) : Prop where
  accepted : ∃ json, example_.toJson? = some json ∧ schema.Accepts json
  /-- Where there is nothing to show, nothing is required. -/
  unconstrained : example_.isNull = true → ∀ json, schema.Accepts json

theorem Conforms.of_accepted {schema : Schema} {example_ : Value} (shown : example_.isNull = false)
    (accepted : ∃ json, example_.toJson? = some json ∧ schema.Accepts json) :
    Conforms schema example_ :=
  ⟨accepted, fun isNull => by rw [shown] at isNull; cases isNull⟩

theorem Conforms.widen {schema widened : Schema} {example_ : Value}
    (conforms : Conforms schema example_)
    (wider : ∀ json, schema.Accepts json → widened.Accepts json) : Conforms widened example_ := by
  obtain ⟨json, form, accepted⟩ := conforms.accepted
  exact ⟨⟨json, form, wider json accepted⟩,
    fun isNull other => wider other (conforms.unconstrained isNull other)⟩

theorem conforms_nil_null : Conforms [] .null :=
  ⟨⟨.null, rfl, Schema.accepts_nil _⟩, fun _ => Schema.accepts_nil⟩

/-- Whether a primitive has no content or a scalar of its own type. -/
def Element.OwnTyped (element : Element) (kind : Kind) : Prop :=
  element.content = .absent ∨
    ∃ value : Json, element.content = .literal value ∧ value.HasType kind.name

/-- What examples need to conform: there is no group of options, primitives hold scalars of their own
type, a choice has a first one, which is a scalar, and what is required can be shown. -/
def Visit.Conventional (types : SymbolTable) : Visit → Prop
  | .rendered element =>
      element.kind ≠ some .optionSet ∧
      (∀ kind, element.kind = some kind → kind.isPrimitive = true → element.OwnTyped kind) ∧
      (element.kind = some .enum → ∃ choice kind value, element.children.head? = some choice ∧
        choice.kind = some kind ∧ kind.isPrimitive = true ∧ choice.content = .literal value)
  | .listed member =>
      member.kind ≠ some .optionSet ∧
      (∀ key, member.slot? = some key → member.hasFlag requiredFlag = .ok true →
        ∃ value example_, member.memberValue? = some value ∧ ShowsExample types value example_ ∧
          example_.isNull = false)

theorem conforms_ofPrimitive {element : Element} {kind : Kind} (known : element.kind = some kind)
    (primitive : kind.isPrimitive = true) (typed : element.OwnTyped kind) :
    Conforms (Schema.ofPrimitive element) (Example.ofPrimitive kind element) := by
  unfold Example.ofPrimitive
  have accepts : ∀ json : Json, json.HasType kind.name → (Schema.ofPrimitive element).Accepts json :=
    fun json typed => by
      rw [Schema.accepts_ofPrimitive_iff, Element.name_of_primitive known primitive]
      exact typed
  rcases typed with absent | ⟨value, literal, typed⟩
  · rw [absent]
    cases kind with
    | boolean => exact .of_accepted rfl ⟨.bool true, rfl, accepts _ rfl⟩
    | number => exact .of_accepted rfl ⟨.int 1, rfl, accepts _ (.inl rfl)⟩
    | string => exact .of_accepted rfl ⟨.string "Hello, world!", rfl, accepts _ rfl⟩
    | _ => cases primitive
  · rw [literal]
    obtain ⟨form, shown⟩ := typed.toJson?_ofJson primitive
    exact .of_accepted shown ⟨value, form, accepts value typed⟩

theorem conforms_ofChoices {choices : List Element} {choice : Element} {value : Json} {kind : Kind}
    (first : choices.head? = some choice) (literal : choice.content = .literal value)
    (primitive : kind.isPrimitive = true) (typed : value.HasType kind.name) :
    Conforms (Schema.ofChoices choices) (.ofJson value) := by
  obtain ⟨form, shown⟩ := typed.toJson?_ofJson primitive
  refine .of_accepted shown ⟨value, form, ?_⟩
  have listed : Mapping.get? (Schema.ofChoices choices) "enum" =
      some (.array (choices.map fun choice => .ofContent choice.content)) := Mapping.get?_cons_self ..
  rw [Schema.accepts_enumerated_iff listed fun keyword other _ => if_neg (Ne.symm other)]
  refine ⟨.ofJson value, List.mem_map.mpr ⟨choice, List.mem_of_mem_head? first, ?_⟩, rfl⟩
  rw [literal]
  rfl

/-! ## Objects -/

/-- How the parts of an object's schema and the entries of its example go together, member by member:
every entry has a JSON form that the schema of its property accepts, and required names are there. -/
structure MembersConform (parts : Schema.ObjectParts) (entries : Mapping Value) : Prop where
  free : parts.exclusive = []
  distinct : Mapping.NamesDistinct entries
  accepted : ∀ name value, Mapping.get? entries name = some value →
    ∃ json, value.toJson? = some json ∧ ∀ schema : Value,
      Mapping.get? parts.properties name = some schema → schema.Accepts json
  required : ∀ name ∈ parts.required, name ∈ Mapping.names entries

namespace MembersConform

theorem empty : MembersConform ⟨[], [], []⟩ [] where
  free := rfl
  distinct := List.nodup_nil
  accepted _ _ found := by cases found
  required _ member := by cases member

variable {parts : Schema.ObjectParts} {entries : Mapping Value}
  (conform : MembersConform parts entries)

include conform

/-- A property that shows nothing constrains nothing, also where an earlier member with its key has
left an entry. -/
theorem putUnconstrained (key : String) {schema : Schema}
    (unconstrained : ∀ json, schema.Accepts json) :
    MembersConform { parts with
      properties := Mapping.put parts.properties key (.object schema) } entries where
  free := conform.free
  distinct := conform.distinct
  accepted name value found := by
    obtain ⟨json, form, accepted⟩ := conform.accepted name value found
    refine ⟨json, form, fun property declared => ?_⟩
    rw [Mapping.get?_put] at declared
    split at declared
    · cases declared
      exact unconstrained json
    · exact accepted property declared
  required := conform.required

theorem putShown (key : String) {schema : Schema} {example_ : Value} {required : Bool}
    (accepted : ∃ json, example_.toJson? = some json ∧ schema.Accepts json) :
    MembersConform
      { parts with
        properties := Mapping.put parts.properties key (.object schema)
        required := if required then Schema.addName parts.required key else parts.required }
      (Mapping.put entries key example_) where
  free := conform.free
  distinct := conform.distinct.put key example_
  accepted name value found := by
    rw [Mapping.get?_put] at found
    split at found
    · rename_i same
      subst same
      cases found
      obtain ⟨json, form, holds⟩ := accepted
      refine ⟨json, form, fun property declared => ?_⟩
      rw [Mapping.get?_put_self] at declared
      cases declared
      exact holds
    · rename_i other
      obtain ⟨json, form, holds⟩ := conform.accepted name value found
      refine ⟨json, form, fun property declared => ?_⟩
      rw [Mapping.get?_put_of_ne _ _ other] at declared
      exact holds property declared
  required name among := by
    rw [Mapping.mem_names_put]
    have either : name = key ∨ name ∈ parts.required := by
      cases required with
      | false => exact .inr among
      | true =>
        simp only [if_pos, Schema.addName] at among
        split at among
        · exact .inr among
        · exact (List.mem_append.mp among).symm.imp_left List.mem_singleton.mp
    exact either.imp_right (conform.required name)

/-- The schema made of the parts accepts the object made of the entries. -/
theorem conforms : Conforms parts.toSchema (.object entries) := by
  have each : ∀ entry ∈ entries, ∃ json, entry.2.toJson? = some json := by
    rintro ⟨name, value⟩ member
    obtain ⟨json, form, -⟩ :=
      conform.accepted name value (Mapping.get?_of_mem conform.distinct member)
    exact ⟨json, form⟩
  obtain ⟨items, success, names, back⟩ := Value.exists_toEntries? each
  refine .of_accepted rfl ⟨.object items, by simp [Value.toJson?, success], ?_⟩
  rw [Schema.ObjectParts.accepts_toSchema_iff]
  refine ⟨fun name item present schema declared => ?_, fun group among => ?_, fun name among => ?_⟩
  · obtain ⟨shown, entry, form⟩ := back name item present
    obtain ⟨json, sameForm, accepted⟩ := conform.accepted name shown entry
    rw [form] at sameForm
    cases sameForm
    exact accepted schema declared
  · rw [conform.free] at among
    cases among
  · rw [names]
    exact conform.required name among

end MembersConform

section Rendering

variable {types : SymbolTable}

/-- One member, added to the schema and to the example. -/
theorem MembersConform.addMember {render : Element → Except RenderFault Schema}
    {show_ : Element → Except RenderFault Value}
    {showMembers : List Element → Except RenderFault (Mapping Value)}
    {parts after : Schema.ObjectParts} {entries entriesAfter : Mapping Value} {member : Element}
    (conform : MembersConform parts entries)
    (conventional : Visit.Conventional types (.listed member))
    (forms : ∀ element schema, render element = .ok schema → schema.Form)
    (shows : ∀ element example_, show_ element = .ok example_ → ShowsExample types element example_)
    (values : ∀ element schema example_, Step types (.listed member) (.rendered element) →
      render element = .ok schema → show_ element = .ok example_ → Conforms schema example_)
    (schemaStep : Schema.addMember render parts member = .ok after)
    (exampleStep : Example.addMember show_ showMembers entries member = .ok entriesAfter) :
    MembersConform after entriesAfter := by
  obtain ⟨noOptionSet, shown⟩ := conventional
  have noGroup : ¬ member.isOptionSet = true := fun isGroup => noOptionSet (of_decide_eq_true isGroup)
  unfold Schema.addMember at schemaStep
  unfold Example.addMember at exampleStep
  rw [if_neg noGroup] at schemaStep exampleStep
  cases slot : member.slot? with
  | none =>
    simp only [slot] at schemaStep exampleStep
    cases schemaStep
    cases exampleStep
    exact conform
  | some key =>
    simp only [slot] at schemaStep exampleStep
    obtain ⟨property, described, schemaStep⟩ := bind_eq_ok_iff.mp schemaStep
    obtain ⟨required, flagged, schemaStep⟩ := bind_eq_ok_iff.mp schemaStep
    obtain ⟨widened, widens, schemaStep⟩ := bind_eq_ok_iff.mp schemaStep
    cases schemaStep
    have flag : member.hasFlag requiredFlag = .ok required := mapError_eq_ok_iff.mp flagged
    unfold Schema.propertySchema at described
    cases held : member.memberValue? with
    | none =>
      simp only [held] at described exampleStep
      cases described
      cases exampleStep
      have unconstrained : ∀ json, widened.Accepts json := fun json =>
        (Schema.Form.nil.describe member).accepts_widenIfNullable widens
          (Schema.accepts_describe_iff.mpr (Schema.accepts_nil json))
      cases required with
      | true =>
        obtain ⟨value, _, found, -⟩ := shown key slot flag
        rw [held] at found
        cases found
      | false => exact conform.putUnconstrained key unconstrained
    | some value =>
      simp only [held] at described exampleStep
      obtain ⟨schema, rendered, rfl⟩ := map_eq_ok_iff.mp described
      obtain ⟨example_, exampled, exampleStep⟩ := bind_eq_ok_iff.mp exampleStep
      have conforms : Conforms widened example_ :=
        (values value schema example_ (.value slot held) rendered exampled).widen fun json accepted =>
          ((forms value schema rendered).describe member).accepts_widenIfNullable widens
            (Schema.accepts_describe_iff.mpr accepted)
      cases isNull : example_.isNull with
      | false =>
        simp only [isNull] at exampleStep
        cases exampleStep
        exact conform.putShown key conforms.accepted
      | true =>
        simp only [isNull] at exampleStep
        cases exampleStep
        cases required with
        | true =>
          obtain ⟨other, otherExample, found, ⟨steps, depth, same⟩, visible⟩ := shown key slot flag
          rw [held] at found
          cases found
          obtain ⟨more, deeper, success⟩ := shows value example_ exampled
          rw [renderExampleWithin_unique same success, isNull] at visible
          cases visible
        | false => exact conform.putUnconstrained key (conforms.unconstrained isNull)

theorem example_eq_ofPrimitive {steps depth : Nat} {element : Element} {kind : Kind}
    {example_ : Value} (known : element.kind = some kind) (primitive : kind.isPrimitive = true)
    (success : renderExampleWithin steps types depth element = .ok example_) :
    example_ = Example.ofPrimitive kind element := by
  cases depth with
  | zero =>
    rw [renderExampleWithin] at success
    cases success
  | succ depth =>
    rw [renderExampleWithin] at success
    simp only [known] at success
    cases kind <;> cases primitive <;> cases success <;> rfl

/-- The items of an array conform one by one. -/
theorem conforms_ofItems {render : Element → Except RenderFault Schema}
    {show_ : Element → Except RenderFault Value} {items : List Element} {schema : Schema}
    {examples : List Value} (rendered : Schema.ofArray render items = .ok schema)
    (shown : items.mapM show_ = .ok examples)
    (each : ∀ item ∈ items, ∀ schema example_, render item = .ok schema →
      show_ item = .ok example_ → Conforms schema example_) : Conforms schema (.array examples) := by
  obtain ⟨schemas, success, rfl⟩ := map_eq_ok_iff.mp rendered
  have source : ∀ example_ ∈ examples, ∃ schema ∈ schemas, Conforms schema example_ := by
    intro example_ member
    obtain ⟨item, among, shows⟩ := (exists_of_mapM_eq_ok shown).2 example_ member
    obtain ⟨schema, result, renders⟩ := (exists_of_mapM_eq_ok success).1 item among
    exact ⟨schema, result, each item among schema example_ renders shows⟩
  have forms : ∀ example_ ∈ examples, ∃ json, example_.toJson? = some json := by
    intro example_ member
    obtain ⟨schema, _, conforms⟩ := source example_ member
    obtain ⟨json, form, -⟩ := conforms.accepted
    exact ⟨json, form⟩
  obtain ⟨jsons, converted, back⟩ := Value.exists_toItems? forms
  refine .of_accepted rfl ⟨.array jsons, by simp [Value.toJson?, converted], ?_⟩
  refine Schema.accepts_ofItems fun json member => ?_
  obtain ⟨example_, among, form⟩ := back json member
  obtain ⟨schema, result, conforms⟩ := source example_ among
  obtain ⟨other, sameForm, accepted⟩ := conforms.accepted
  rw [form] at sameForm
  cases sameForm
  exact ⟨schema, result, accepted⟩

/-- The members of an object conform one by one, in the order of their expansion. -/
theorem conforms_ofMembers {steps more depth deeper : Nat}
    (elements : ∀ element schema example_,
      Throughout types (Visit.Conventional types) (.rendered element) →
      renderSchemaWithin steps types deeper element = .ok schema →
      renderExampleWithin more types depth element = .ok example_ → Conforms schema example_)
    {members : List Element} {schema : Schema} {entries : Mapping Value}
    (conventional : ∀ member ∈ members, Throughout types (Visit.Conventional types) (.listed member))
    (rendered : Schema.ofMembers steps types (renderSchemaWithin steps types deeper) members =
      .ok schema)
    (shown : renderMembersWithin more types (depth + 1) members = .ok entries) :
    Conforms schema (.object entries) := by
  unfold Schema.ofMembers at rendered
  rw [renderMembersWithin] at shown
  cases expands : expandWithin types steps members with
  | none =>
    rw [expands] at rendered
    cases rendered
  | some expanded =>
    cases expandsToo : expandWithin types more members with
    | none =>
      rw [expandsToo] at shown
      cases shown
    | some others =>
      obtain rfl : expanded = others := expandWithin_unique expands expandsToo
      simp only [expands] at rendered
      simp only [expandsToo] at shown
      obtain ⟨parts, folded, rfl⟩ := map_eq_ok_iff.mp rendered
      refine MembersConform.conforms (foldlM_relation MembersConform folded shown .empty ?_)
      intro member source before after entries entriesAfter together schemaStep exampleStep
      obtain ⟨_, given, known, visits⟩ := visited_of_mem_expandWithin expands member source
      have memberConventional : Throughout types (Visit.Conventional types) (.listed member) :=
        (conventional given known).visits visits
      exact together.addMember memberConventional.here
        (fun _ _ => renderSchemaWithin_form) (fun _ _ success => ⟨_, _, success⟩)
        (fun element schema example_ next => elements element schema example_
          (memberConventional.step next)) schemaStep exampleStep

/-- What the kind of an element contributes conforms to its example, if what the element leads to
conforms. -/
theorem conforms_ofKind {steps more depth deeper : Nat}
    (elements : ∀ element schema example_,
      Throughout types (Visit.Conventional types) (.rendered element) →
      renderSchemaWithin steps types deeper element = .ok schema →
      renderExampleWithin more types depth element = .ok example_ → Conforms schema example_)
    (lists : ∀ (members : List Element) schema entries,
      (∀ member ∈ members, Throughout types (Visit.Conventional types) (.listed member)) →
      Schema.ofMembers steps types (renderSchemaWithin steps types deeper) members = .ok schema →
      renderMembersWithin more types depth members = .ok entries → Conforms schema (.object entries))
    {element : Element} {schema : Schema} {example_ : Value}
    (conventional : Throughout types (Visit.Conventional types) (.rendered element))
    (rendered : Schema.ofKind steps types (renderSchemaWithin steps types deeper) element =
      .ok schema)
    (shown : renderExampleWithin more types (depth + 1) element = .ok example_) :
    Conforms schema example_ := by
  obtain ⟨noOptionSet, typed, choice⟩ := conventional.here
  rw [renderExampleWithin] at shown
  unfold Schema.ofKind at rendered
  cases kind : element.kind with
  | none =>
    simp only [kind] at rendered shown
    cases found : Mapping.get? types element.name with
    | none =>
      simp only [found] at rendered shown
      cases rendered
      cases shown
      exact conforms_nil_null
    | some base =>
      simp only [found] at rendered shown
      exact elements _ schema example_ (conventional.step (.inherit kind found)) rendered shown
  | some known =>
    simp only [kind] at rendered shown
    cases known with
    | boolean | string | number =>
      cases rendered
      cases shown
      exact conforms_ofPrimitive kind rfl (typed _ kind rfl)
    | enum =>
      obtain ⟨first, firstKind, value, head, known, primitive, literal⟩ := choice kind
      obtain ⟨rest, children⟩ := List.head?_eq_some_iff.mp head
      simp only [children] at shown
      cases rendered
      rw [example_eq_ofPrimitive known primitive shown]
      have firstTyped : first.OwnTyped firstKind :=
        (conventional.step (.firstChoice kind head)).here.2.1 firstKind known primitive
      rcases firstTyped with absent | ⟨own, same, ownTyped⟩
      · rw [absent] at literal
        cases literal
      · unfold Example.ofPrimitive
        rw [same]
        exact conforms_ofChoices head same primitive ownTyped
    | array =>
      obtain ⟨examples, items, rfl⟩ := map_eq_ok_iff.mp shown
      exact conforms_ofItems rendered items fun item child schema example_ =>
        elements item schema example_ (conventional.step (.item kind child))
    | object =>
      obtain ⟨entries, members, rfl⟩ := map_eq_ok_iff.mp shown
      exact lists element.children schema entries
        (fun member child => conventional.step (.objectMember (.inl kind) child)) rendered members
    | option =>
      obtain ⟨entries, members, rfl⟩ := map_eq_ok_iff.mp shown
      exact lists element.children schema entries
        (fun member child => conventional.step (.objectMember (.inr kind) child)) rendered members
    | optionSet => exact absurd kind noOptionSet
    | member =>
      cases rendered
      cases shown
      exact conforms_nil_null
    | reference =>
      cases found : element.target?.bind (Mapping.get? types) with
      | none =>
        simp only [found] at rendered shown
        cases rendered
        cases shown
        exact conforms_nil_null
      | some target =>
        simp only [found] at rendered shown
        exact elements target schema example_ (conventional.step (.target kind found)) rendered shown

/-- Whatever the limits, the schema and the example of an element conform, and so do those of a list
of members; this is by induction on the depth of the example. -/
theorem conforms_within {steps more : Nat} (depth : Nat) :
    (∀ element deeper schema example_,
      Throughout types (Visit.Conventional types) (.rendered element) →
      renderSchemaWithin steps types deeper element = .ok schema →
      renderExampleWithin more types depth element = .ok example_ → Conforms schema example_) ∧
    ∀ (members : List Element) deeper schema entries,
      (∀ member ∈ members, Throughout types (Visit.Conventional types) (.listed member)) →
      Schema.ofMembers steps types (renderSchemaWithin steps types deeper) members = .ok schema →
      renderMembersWithin more types depth members = .ok entries →
      Conforms schema (.object entries) := by
  induction depth with
  | zero =>
    refine ⟨fun _ _ _ _ _ _ success => ?_, fun _ _ _ _ _ _ success => ?_⟩
    · rw [renderExampleWithin] at success
      cases success
    · rw [renderMembersWithin] at success
      cases success
  | succ depth ih =>
    obtain ⟨elements, lists⟩ := ih
    constructor
    · intro element deeper schema example_ conventional rendered shown
      cases deeper with
      | zero => cases rendered
      | succ deeper =>
        obtain ⟨body, contributed, form, widens⟩ := exists_body_of_success rendered
        have conforms : Conforms body example_ :=
          conforms_ofKind (fun element => elements element deeper)
            (fun members => lists members deeper) conventional contributed shown
        exact conforms.widen fun json accepted => (form.describe element).accepts_widenIfNullable
          widens (Schema.accepts_describe_iff.mpr accepted)
    · intro members deeper schema entries conventional rendered shown
      exact conforms_ofMembers (fun element => elements element deeper) conventional rendered shown

/-- Where both renderings of a conventional element come to an end, both have a result, and an example
that shows anything has a JSON form that the schema accepts. -/
theorem example_conforms {element : Element} {steps depth more deeper : Nat}
    (parsedTypes : types.Parsed) (parsed : element.Parsed)
    (conventional : Throughout types (Visit.Conventional types) (.rendered element))
    (schemaEnds : Settled (renderSchemaWithin steps types depth element))
    (exampleEnds : Settled (renderExampleWithin more types deeper element)) :
    ∃ schema example_, renderSchemaWithin steps types depth element = .ok schema ∧
      renderExampleWithin more types deeper element = .ok example_ ∧
      (example_.isNull = false → ∃ json, example_.toJson? = some json ∧ schema.Accepts json) := by
  obtain ⟨schema, rendersSchema⟩ := exists_schema_of_settled parsedTypes parsed schemaEnds
  obtain ⟨example_, rendersExample⟩ := exists_example_of_settled exampleEnds
  have conforms : Conforms schema example_ :=
    (conforms_within deeper).1 element depth schema example_ conventional rendersSchema rendersExample
  exact ⟨schema, example_, rendersSchema, rendersExample, fun _ => conforms.accepted⟩

end Rendering

namespace RequiredMember

/-- A number that must be there, included into an object. -/
def number : Element := ⟨"number", .absent, [], []⟩

def member : Element :=
  ⟨"member", .member ⟨"string", .literal (.string "id"), [], []⟩ (some number), [],
    [(flagsAttribute, .array [.string requiredFlag])]⟩

def table : SymbolTable := [("Identified", ⟨"object", .children [member], [], []⟩)]

def mixin : Element := ⟨"ref", .literal (.string "Identified"), [], []⟩

def element : Element := ⟨"object", .children [mixin], [], []⟩

theorem number_conventional :
    Throughout table (Visit.Conventional table) (.rendered number) := by
  have simple : number.kind = some .number := rfl
  exact .intro ⟨by decide, fun _ _ _ => .inl rfl, fun kind => absurd kind (by decide)⟩
    fun after next => absurd next (Step.not_of_primitive simple rfl)

theorem member_conventional : Throughout table (Visit.Conventional table) (.listed member) := by
  refine .intro ⟨by decide, fun _ _ _ => ⟨number, .int 1, rfl, ⟨0, 1, rfl⟩, rfl⟩⟩ fun after next => ?_
  cases next with
  | mixin isReference _ => exact absurd isReference (by decide)
  | value _ held =>
    cases held
    exact number_conventional
  | option isOptionSet _ => exact absurd isOptionSet (by decide)
  | firstOption isOptionSet _ _ => exact absurd isOptionSet (by decide)

theorem mixin_conventional : Throughout table (Visit.Conventional table) (.listed mixin) := by
  have noSlot : mixin.slot? = none := Element.slot?_of_isReference (by decide)
  refine .intro ⟨by decide, fun key slot => ?_⟩ fun after next => ?_
  · rw [noSlot] at slot
    cases slot
  · cases next with
    | mixin _ included =>
      rw [List.mem_singleton.mp included]
      exact member_conventional
    | value slot _ =>
      rw [noSlot] at slot
      cases slot
    | option isOptionSet _ => exact absurd isOptionSet (by decide)
    | firstOption isOptionSet _ _ => exact absurd isOptionSet (by decide)

theorem element_conventional :
    Throughout table (Visit.Conventional table) (.rendered element) := by
  refine .intro ⟨by decide, fun kind known primitive => ?_, fun kind => absurd kind (by decide)⟩
    fun after next => ?_
  · cases known
    cases primitive
  · obtain ⟨member, child, rfl⟩ := next.of_object (.inl rfl)
    rw [List.mem_singleton.mp child]
    exact mixin_conventional

theorem example_conforms_required :
    ∃ schema example_, renderSchema table element = .ok schema ∧
      renderExample table element = .ok example_ ∧
      (example_.isNull = false → ∃ json, example_.toJson? = some json ∧ schema.Accepts json) := by
  have tableParsed : table.Parsed := by
    rintro entry (_ | ⟨_, ⟨⟩⟩)
    exact ⟨.object [("element", .string "object"), ("content", .array
      [.object [("element", .string "member"),
        ("attributes", .object [("typeAttributes", .array [.string "required"])]),
        ("content", .object
          [("key", .object [("element", .string "string"), ("content", .string "id")]),
            ("value", .object [("element", .string "number")])])]])], by decide, rfl⟩
  have parsed : element.Parsed :=
    ⟨.object [("element", .string "object"), ("content", .array
      [.object [("element", .string "ref"), ("content", .string "Identified")]])], by decide, rfl⟩
  exact example_conforms tableParsed parsed element_conventional (settled_ok _) (settled_ok _)

end RequiredMember

end Mson
