import Mson.Proofs.Rendering.Result

/-!
# Elements that are rendered as objects

An element is rendered as an object if it is one, or if its declaration or its target leads to one;
`RendersMembers` says with which members. Whatever lies on the way adds descriptions and null and
leaves alone what the members make, and only elements that lead to members have exclusive groups. A
list of members is rendered part by part: of two parts that give one property the later one stands
(`ObjectSchema.append`), and a property is there if one of the members contributes it
(`ObjectSchema.mem_names_iff`).
-/
namespace Mson

variable {types : SymbolTable}

/-- Whether an element is rendered as the object with the given members. -/
inductive RendersMembers (types : SymbolTable) : Element → List Element → Prop
  | object {element : Element} (kind : element.kind = some .object ∨ element.kind = some .option) :
      RendersMembers types element element.children
  | optionSet {element : Element} (kind : element.kind = some .optionSet) :
      RendersMembers types element [element]
  | target {element target : Element} {members : List Element}
      (kind : element.kind = some .reference)
      (found : element.target?.bind (Mapping.get? types) = some target)
      (leads : RendersMembers types target members) : RendersMembers types element members
  | inherit {element base : Element} {members : List Element} (kind : element.kind = none)
      (found : Mapping.get? types element.name = some base)
      (leads : RendersMembers types (resolveInheritance base element) members) :
      RendersMembers types element members

namespace RendersMembers

section Kept

/-! A relation may say what a schema has of the one that it was before its description and its null were
put in. -/

variable {Kept : Schema → Schema → Prop}
  (finished : ∀ {element : Element} {body schema : Schema}, body.Form →
    Schema.widenIfNullable element (Schema.describe element body) = .ok schema → Kept schema body)

include finished

theorem exists_ofKind_of_success {steps depth : Nat} {element : Element} {schema : Schema}
    (success : renderSchemaWithin steps types depth element = .ok schema) :
    ∃ lower body,
      Schema.ofKind steps types (renderSchemaWithin steps types lower) element = .ok body ∧
        Kept schema body := by
  cases depth with
  | zero => cases success
  | succ depth =>
    obtain ⟨body, contributed, form, finishes⟩ := exists_body_of_success success
    exact ⟨depth, body, contributed, finished form finishes⟩

/-- What is kept at each level is kept of what the members make. -/
theorem exists_objectSchema {element : Element} {members : List Element} {schema : Schema}
    (trans : ∀ {first second third}, Kept first second → Kept second third → Kept first third)
    (leads : RendersMembers types element members) (shown : ShowsSchema types element schema) :
    ∃ inner, ObjectSchema types members inner ∧ Kept schema inner := by
  obtain ⟨steps, depth, success⟩ := shown
  induction leads generalizing depth schema with
  | object kind =>
    obtain ⟨lower, body, contributed, kept⟩ := exists_ofKind_of_success finished success
    rw [Schema.ofKind_of_object kind] at contributed
    exact ⟨body, ⟨steps, lower, contributed⟩, kept⟩
  | optionSet kind =>
    obtain ⟨lower, body, contributed, kept⟩ := exists_ofKind_of_success finished success
    refine ⟨body, ⟨steps, lower, ?_⟩, kept⟩
    simpa only [Schema.ofKind, kind] using contributed
  | target kind found _ ih =>
    obtain ⟨lower, body, contributed, kept⟩ := exists_ofKind_of_success finished success
    simp only [Schema.ofKind, kind, found] at contributed
    obtain ⟨inner, object, further⟩ := ih lower contributed
    exact ⟨inner, object, trans kept further⟩
  | inherit kind found _ ih =>
    obtain ⟨lower, body, contributed, kept⟩ := exists_ofKind_of_success finished success
    simp only [Schema.ofKind, kind, found] at contributed
    obtain ⟨inner, object, further⟩ := ih lower contributed
    exact ⟨inner, object, trans kept further⟩

end Kept

variable {element : Element} {members : List Element}

/-- What the members make is found in the schema of the element. -/
theorem objectSchema (leads : RendersMembers types element members) {schema : Schema}
    (shown : ShowsSchema types element schema) :
    ∃ inner, ObjectSchema types members inner ∧
      ∀ keyword ∈ Schema.memberKeywords, Mapping.get? schema keyword = Mapping.get? inner keyword :=
  @exists_objectSchema types (fun schema body => ∀ keyword ∈ Schema.memberKeywords,
      Mapping.get? schema keyword = Mapping.get? body keyword)
    (fun form finishes _ made => form.get?_finished finishes made) _ _ _
    (fun one other keyword made => (one keyword made).trans (other keyword made)) leads shown

/-- The example of the element is the one made of the members. -/
theorem objectExample (leads : RendersMembers types element members) {example_ : Value}
    (shown : ShowsExample types element example_) :
    ∃ entries, ObjectExample types members entries ∧ example_ = .object entries := by
  obtain ⟨steps, depth, success⟩ := shown
  induction leads generalizing depth with
  | object kind =>
    cases depth with
    | zero => rw [renderExampleWithin] at success; cases success
    | succ depth =>
      rw [renderExampleWithin] at success
      rcases kind with kind | kind
      all_goals
        simp only [kind] at success
        obtain ⟨entries, shown, rfl⟩ := map_eq_ok_iff.mp success
        exact ⟨entries, ⟨steps, depth, shown⟩, rfl⟩
  | optionSet kind =>
    cases depth with
    | zero => rw [renderExampleWithin] at success; cases success
    | succ depth =>
      rw [renderExampleWithin] at success
      simp only [kind] at success
      obtain ⟨entries, shown, rfl⟩ := map_eq_ok_iff.mp success
      exact ⟨entries, ⟨steps, depth, shown⟩, rfl⟩
  | target kind found _ ih =>
    cases depth with
    | zero => rw [renderExampleWithin] at success; cases success
    | succ depth =>
      rw [renderExampleWithin] at success
      simp only [kind, found] at success
      exact ih depth success
  | inherit kind found _ ih =>
    cases depth with
    | zero => rw [renderExampleWithin] at success; cases success
    | succ depth =>
      rw [renderExampleWithin] at success
      simp only [kind, found] at success
      exact ih depth success

end RendersMembers

/-- Only elements that are rendered as objects have exclusive groups. -/
theorem exists_rendersMembers_of_allOf {element : Element} {schema : Schema} {clauses : Value}
    (shown : ShowsSchema types element schema) (found : Mapping.get? schema "allOf" = some clauses) :
    ∃ members, RendersMembers types element members := by
  obtain ⟨steps, depth, success⟩ := shown
  induction depth generalizing element schema with
  | zero => cases success
  | succ depth ih =>
    obtain ⟨body, contributed, form, finished⟩ := exists_body_of_success success
    rw [form.get?_finished finished (by decide)] at found
    have silent : ∀ other : Schema, Mapping.get? other "allOf" = none →
        (.ok other : Except RenderFault Schema) ≠ .ok body := by
      rintro other none ⟨⟩
      rw [none] at found
      cases found
    unfold Schema.ofKind at contributed
    split at contributed
    · exact absurd contributed (silent _ (Schema.ofPrimitive_keyword (by decide) (by decide)))
    · exact absurd contributed (silent _ (Schema.ofPrimitive_keyword (by decide) (by decide)))
    · exact absurd contributed (silent _ (Schema.ofPrimitive_keyword (by decide) (by decide)))
    · exact absurd contributed (silent _ rfl)
    · rw [Schema.ofArray_keyword contributed (by decide) (by decide)] at found
      cases found
    · exact ⟨_, .object (.inl ‹_›)⟩
    · exact ⟨_, .object (.inr ‹_›)⟩
    · exact ⟨_, .optionSet ‹_›⟩
    · rename_i kind
      split at contributed
      · rename_i target declared
        obtain ⟨members, leads⟩ := ih found contributed
        exact ⟨members, .target kind declared leads⟩
      · exact absurd contributed (silent [] rfl)
    · exact absurd contributed (silent [] rfl)
    · rename_i kind
      split at contributed
      · rename_i base declared
        obtain ⟨members, leads⟩ := ih found contributed
        exact ⟨members, .inherit kind declared leads⟩
      · exact absurd contributed (silent [] rfl)

/-! ## Parts of a list of members -/

theorem propertiesOf_contributed (added : List Schema.ObjectParts) :
    Schema.propertiesOf (added.foldl Schema.ObjectParts.append ⟨[], [], []⟩).toSchema =
      Mapping.overwrite [] (added.flatMap Schema.ObjectParts.properties) := by
  rw [Schema.propertiesOf_toSchema, Schema.properties_foldl_append]

/-- Of two parts of an object that give one property the later one stands. -/
theorem ObjectSchema.append {first second : List Element} {schema : Schema}
    (object : ObjectSchema types (first ++ second) schema) :
    ∃ earlier later, ObjectSchema types first earlier ∧ ObjectSchema types second later ∧
      ∀ name, Mapping.get? (Schema.propertiesOf schema) name =
        (Mapping.get? (Schema.propertiesOf later) name).or
          (Mapping.get? (Schema.propertiesOf earlier) name) := by
  obtain ⟨steps, depth, success⟩ := object
  obtain ⟨expanded, added, expands, contributed, rfl⟩ := Schema.ofMembers_eq_ok_iff.mp success
  obtain ⟨expandedFirst, expandedSecond, one, two, rfl⟩ := exists_of_expandWithin_append expands
  obtain ⟨addedFirst, addedSecond, three, four, rfl⟩ := mapM_append_eq_ok_iff.mp contributed
  refine ⟨_, _, ⟨steps, depth, Schema.ofMembers_eq_ok_iff.mpr ⟨_, _, one, three, rfl⟩⟩,
    ⟨steps, depth, Schema.ofMembers_eq_ok_iff.mpr ⟨_, _, two, four, rfl⟩⟩, fun name => ?_⟩
  simp only [propertiesOf_contributed]
  rw [List.flatMap_append, Mapping.overwrite_append, Mapping.get?_overwrite_eq_or]

theorem ObjectSchema.cons {member : Element} {rest : List Element} {schema : Schema}
    (object : ObjectSchema types (member :: rest) schema) :
    ∃ own others, ObjectSchema types [member] own ∧ ObjectSchema types rest others ∧
      ∀ name, Mapping.get? (Schema.propertiesOf schema) name =
        (Mapping.get? (Schema.propertiesOf others) name).or
          (Mapping.get? (Schema.propertiesOf own) name) := by
  have parts : ObjectSchema types ([member] ++ rest) schema := object
  exact parts.append

theorem ObjectSchema.single {members : List Element} {schema : Schema} {member : Element}
    (object : ObjectSchema types members schema) (among : member ∈ members) :
    ∃ own, ObjectSchema types [member] own := by
  obtain ⟨before, after, rfl⟩ := List.append_of_mem among
  obtain ⟨-, rest, -, remaining, -⟩ := object.append
  obtain ⟨own, -, here, -, -⟩ := remaining.cons
  exact ⟨own, here⟩

/-- The properties of an object with one member that is no mixin are those that it contributes. -/
theorem ObjectSchema.exists_contribution {member : Element} {schema : Schema}
    (object : ObjectSchema types [member] schema) (other : ¬ member.isReference = true) :
    ∃ steps depth added,
      Schema.contribution (renderSchemaWithin steps types depth) member = .ok added ∧
        Schema.propertiesOf schema = Mapping.overwrite [] added.properties := by
  obtain ⟨steps, depth, success⟩ := object
  obtain ⟨expanded, all, expands, contributed, rfl⟩ := Schema.ofMembers_eq_ok_iff.mp success
  rw [expandWithin_single other expands] at contributed
  obtain ⟨added, rest, own, others, rfl⟩ := mapM_cons_eq_ok_iff.mp contributed
  rw [mapM_nil_eq_ok_iff.mp others]
  refine ⟨steps, depth, added, own, ?_⟩
  rw [propertiesOf_contributed, List.flatMap_singleton]

/-- A member with a key makes one property, its schema. -/
theorem ObjectSchema.of_slot {member : Element} {key : String} {schema : Schema}
    (object : ObjectSchema types [member] schema) (slot : member.slot? = some key) :
    ∃ own, MemberSchema types member own ∧ Schema.propertiesOf schema = [(key, .object own)] := by
  obtain ⟨steps, depth, added, success, made⟩ :=
    object.exists_contribution (not_isReference_of_slot slot)
  obtain ⟨own, shown, properties⟩ := Schema.contribution_of_slot slot success
  exact ⟨own, ⟨steps, depth, shown⟩, by rw [made, properties]; rfl⟩

/-- Whether a member gives an object a property of the given name. -/
def Contributes (types : SymbolTable) (member : Element) (name : String) : Prop :=
  ∃ schema, ObjectSchema types [member] schema ∧ name ∈ Mapping.names (Schema.propertiesOf schema)

theorem ObjectSchema.mem_names_iff {members : List Element} {schema : Schema} {name : String}
    (object : ObjectSchema types members schema) :
    name ∈ Mapping.names (Schema.propertiesOf schema) ↔
      ∃ member ∈ members, Contributes types member name := by
  induction members generalizing schema with
  | nil =>
    obtain ⟨steps, depth, success⟩ := object
    obtain ⟨expanded, added, expands, contributed, rfl⟩ := Schema.ofMembers_eq_ok_iff.mp success
    rw [expandWithin_nil] at expands
    cases expands
    rw [mapM_nil_eq_ok_iff.mp contributed, propertiesOf_contributed]
    simp [Mapping.overwrite]
  | cons member rest ih =>
    obtain ⟨own, others, single, remaining, together⟩ := object.cons
    have parts : name ∈ Mapping.names (Schema.propertiesOf schema) ↔
        name ∈ Mapping.names (Schema.propertiesOf own) ∨
          name ∈ Mapping.names (Schema.propertiesOf others) := by
      simp only [← Mapping.has_iff, Mapping.has, together, Option.isSome_or, Bool.or_eq_true,
        or_comm]
    have here : name ∈ Mapping.names (Schema.propertiesOf own) ↔ Contributes types member name := by
      constructor
      · exact fun named => ⟨own, single, named⟩
      · rintro ⟨other, sameObject, named⟩
        exact single.unique sameObject ▸ named
    rw [parts, here, ih remaining]
    simp only [List.mem_cons, exists_eq_or_imp]

/-- A member with a key contributes its key. -/
theorem contributes_iff_of_slot {member : Element} {key name : String} {schema : Schema}
    (object : ObjectSchema types [member] schema) (slot : member.slot? = some key) :
    Contributes types member name ↔ name = key := by
  obtain ⟨own, -, properties⟩ := object.of_slot slot
  constructor
  · rintro ⟨other, sameObject, named⟩
    rw [← object.unique sameObject, properties] at named
    exact List.mem_singleton.mp named
  · rintro rfl
    exact ⟨schema, object, by rw [properties]; exact List.mem_singleton_self _⟩

/-- Of what contributes a property, all but its own members are mixins or option sets. -/
theorem Contributes.source {member : Element} {name : String}
    (contributes : Contributes types member name) :
    member.slot? = some name ∨ member.isReference = true ∨ member.isOptionSet = true := by
  obtain ⟨schema, object, named⟩ := contributes
  by_cases isReference : member.isReference = true
  · exact .inr (.inl isReference)
  obtain ⟨steps, depth, added, success, made⟩ := object.exists_contribution isReference
  rw [made] at named
  cases Schema.isContribution success with
  | optionSet isOptionSet _ => exact .inr (.inr isOptionSet)
  | member slot _ _ => exact .inl (by rw [slot, List.mem_singleton.mp named])
  | other _ _ => cases named

end Mson
