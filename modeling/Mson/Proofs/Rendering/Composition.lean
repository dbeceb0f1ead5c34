import Mson.Proofs.Example.Contribution
import Mson.Proofs.Rendering.Limit
import Mson.Proofs.Schema.Contribution

/-!
# Properties of renderings

Rendering takes over descriptions and the contents of primitives and of choices as they are, and puts
everything else together itself. So a property that passes from the parts of a value to the whole
(`Value.FromParts`) holds of a rendered schema and of a rendered example if it holds of all that is
taken over from visited elements (`Visit.Gives`).
-/
namespace Mson

/-- A property of values that is had by an array or an object exactly if all its parts have it, and by
whatever else rendering adds of its own. -/
structure Value.FromParts (holds : Value → Prop) : Prop where
  null : holds .null
  bool : ∀ value, holds (.bool value)
  int : ∀ value, holds (.int value)
  string : ∀ text, holds (.string text)
  array_iff : ∀ {items}, holds (.array items) ↔ ∀ item ∈ items, holds item
  object_iff : ∀ {entries : Mapping Value},
    holds (.object entries) ↔ ∀ entry ∈ entries, holds entry.2

/-- Whether what rendering takes over from an element as it is has a property. -/
structure Element.Gives (holds : Value → Prop) (element : Element) : Prop where
  description : ∀ text, element.description? = some text → holds (.ofJson text)
  default_ : ∀ value, Mapping.get? element.attributes "default" = some value → holds (.ofJson value)
  primitive : ∀ kind, element.kind = some kind → kind.isPrimitive = true →
    holds (.ofContent element.content)
  choices : element.kind = some .enum → ∀ choice ∈ element.children, holds (.ofContent choice.content)

/-- Whether what rendering takes over from a visited element has a property; of a member that is only
its description. -/
def Visit.Gives (holds : Value → Prop) : Visit → Prop
  | .rendered element => element.Gives holds
  | .listed member => ∀ text, member.description? = some text → holds (.ofJson text)

namespace Value.FromParts

variable {holds : Value → Prop} (laws : Value.FromParts holds)

include laws

/-! ## Entries -/

section Entries

variable {entries changes : Mapping Value}

theorem holds_of_get? (has : holds (.object entries)) {name : String} {value : Value}
    (found : Mapping.get? entries name = some value) : holds value :=
  laws.object_iff.mp has _ (Mapping.mem_of_get? found)

theorem holds_put (has : holds (.object entries)) (name : String) {value : Value}
    (new : holds value) : holds (.object (Mapping.put entries name value)) := by
  rw [laws.object_iff] at *
  intro entry among
  rcases Mapping.mem_put among with rfl | old
  · exact new
  · exact has entry old

theorem holds_overwrite (base : holds (.object entries))
    (new : holds (.object changes)) :
    holds (.object (Mapping.overwrite entries changes)) := by
  rw [laws.object_iff] at *
  intro entry among
  exact (Mapping.mem_overwrite among).elim (base entry) (new entry)

theorem holds_filter (has : holds (.object entries)) (keep : String × Value → Bool) :
    holds (.object (entries.filter keep)) := by
  rw [laws.object_iff] at *
  exact fun entry among => has entry (List.mem_filter.mp among).1

theorem holds_cons {entry : String × Value} (first : holds entry.2)
    (rest : holds (.object entries)) : holds (.object (entry :: entries)) := by
  rw [laws.object_iff] at *
  exact List.forall_mem_cons.mpr ⟨first, rest⟩

theorem holds_nil : holds (.object []) := laws.object_iff.mpr (List.forall_mem_nil _)

theorem holds_strings (texts : List String) : holds (.array (texts.map Value.string)) := by
  rw [laws.array_iff]
  intro value among
  obtain ⟨text, -, rfl⟩ := List.mem_map.mp among
  exact laws.string text

end Entries

/-! ## Schemas -/

section Schema

open Schema

variable {types : SymbolTable}

theorem holds_describe {schema : Schema} (has : holds (.object schema)) {element : Element}
    (description : ∀ text, element.description? = some text → holds (.ofJson text)) :
    holds (.object (describe element schema)) := by
  unfold describe
  split
  · rename_i text given
    exact laws.holds_put has _ (description text given)
  · exact has

theorem holds_append {items added : List Value} (has : holds (.array items))
    (new : holds (.array added)) : holds (.array (items ++ added)) := by
  rw [laws.array_iff] at *
  exact fun value among => (List.mem_append.mp among).elim (has value) (new value)

/-- Widening adds null only. -/
theorem holds_widen {schema widened : Schema} (has : holds (.object schema))
    (success : widen schema = .ok widened) : holds (.object widened) := by
  unfold widen at success
  split at success
  · cases success
    split
    · exact has
    · exact laws.holds_put has _ (laws.holds_strings [_, nullType])
  · rename_i types declared
    cases success
    split
    · exact has
    · exact laws.holds_put has _ (laws.holds_append (laws.holds_of_get? has declared)
        (laws.holds_strings [nullType]))
  · split at success
    · rename_i value listed
      obtain ⟨items, chosen, rfl⟩ := map_eq_ok_iff.mp success
      have nullForm : holds (.array [Value.null]) :=
        laws.array_iff.mpr (List.forall_mem_singleton.mpr laws.null)
      split
      · exact has
      · refine laws.holds_put has _ (laws.holds_append ?_ nullForm)
        unfold choices at chosen
        split at chosen
        · cases chosen
          exact laws.holds_of_get? has listed
        · cases chosen
          exact laws.holds_strings _
        · cases chosen
    · split at success
      · cases success
        exact has
      · obtain ⟨branched, _, success⟩ := bind_eq_ok_iff.mp success
        cases branched with
        | true =>
          cases success
          exact has
        | false =>
          cases success
          refine laws.holds_cons ?_ (laws.holds_filter has _)
          rw [laws.array_iff]
          have onlyNullForm : holds (.object onlyNull) :=
            laws.holds_cons (laws.string nullType) laws.holds_nil
          exact List.forall_mem_cons.mpr ⟨laws.holds_filter has _,
            List.forall_mem_cons.mpr ⟨onlyNullForm, fun _ none => absurd none List.not_mem_nil⟩⟩

theorem holds_widenIfNullable {schema widened : Schema} (has : holds (.object schema))
    {element : Element} (success : widenIfNullable element schema = .ok widened) :
    holds (.object widened) := by
  rcases eq_or_widen_of_widenIfNullable success with rfl | widens
  · exact has
  · exact laws.holds_widen has widens

theorem holds_propertiesOf {schema : Schema} (has : holds (.object schema)) :
    holds (.object (propertiesOf schema)) := by
  unfold propertiesOf
  split
  · rename_i entries found
    exact laws.holds_of_get? has found
  · exact laws.holds_nil

theorem holds_primitiveSchema {element : Element} (gives : element.Gives holds) :
    holds (.object (Schema.ofPrimitive element)) := by
  unfold Schema.ofPrimitive
  refine laws.holds_cons (laws.string _) ?_
  split
  · exact laws.holds_nil
  · exact laws.holds_nil
  · rename_i value _ given
    exact laws.holds_cons (gives.default_ value given) laws.holds_nil

theorem holds_ofChoices {choices : List Element}
    (gives : ∀ choice ∈ choices, holds (.ofContent choice.content)) :
    holds (.object (ofChoices choices)) := by
  refine laws.holds_cons ?_ laws.holds_nil
  rw [laws.array_iff]
  intro value among
  obtain ⟨choice, isChoice, rfl⟩ := List.mem_map.mp among
  exact gives choice isChoice

theorem holds_itemSchema {items : List Schema}
    (each : ∀ item ∈ items, holds (.object item)) : holds (.object (itemSchema items)) := by
  have all : holds (.array (items.map Value.object)) := by
    rw [laws.array_iff]
    intro value among
    obtain ⟨item, isItem, rfl⟩ := List.mem_map.mp among
    exact each item isItem
  unfold itemSchema
  split
  · exact laws.holds_nil
  · exact laws.holds_cons (each _ List.mem_cons_self) laws.holds_nil
  · simp only
    split
    · exact laws.holds_cons (each _ List.mem_cons_self) laws.holds_nil
    · exact laws.holds_cons (laws.holds_cons all laws.holds_nil) laws.holds_nil

theorem holds_exclusionClause (names : List String) : holds (exclusionClause names) :=
  laws.holds_cons (laws.holds_cons (laws.holds_strings names) laws.holds_nil) laws.holds_nil

theorem holds_toSchema {parts : ObjectParts} (properties : holds (.object parts.properties)) :
    holds (.object parts.toSchema) := by
  have clauses : holds (.array (parts.exclusive.map exclusionClause)) := by
    rw [laws.array_iff]
    intro value among
    obtain ⟨names, -, rfl⟩ := List.mem_map.mp among
    exact laws.holds_exclusionClause names
  rw [laws.object_iff]
  intro entry among
  unfold ObjectParts.toSchema at among
  simp only [List.cons_append, List.nil_append, List.mem_cons, List.mem_append] at among
  rcases among with rfl | rfl | exclusive | required
  · exact laws.string _
  · exact properties
  · split at exclusive
    · cases exclusive
    · rw [List.mem_singleton.mp exclusive]
      exact clauses
  · split at required
    · cases required
    · rw [List.mem_singleton.mp required]
      exact laws.holds_strings _

section Members

variable {render : Element → Except RenderFault Schema}
  (each : ∀ element schema, Throughout types (Visit.Gives holds) (.rendered element) →
    render element = .ok schema → holds (.object schema))

include each

theorem holds_memberSchema {member : Element} {key : String} (slot : member.slot? = some key)
    (gives : Throughout types (Visit.Gives holds) (.listed member)) {schema : Schema}
    (success : memberSchema render member = .ok schema) : holds (.object schema) := by
  obtain ⟨described, property, widens⟩ := bind_eq_ok_iff.mp success
  refine laws.holds_widenIfNullable ?_ widens
  unfold propertySchema at property
  split at property
  · rename_i value held
    obtain ⟨rendered, shown, rfl⟩ := map_eq_ok_iff.mp property
    exact laws.holds_describe (each value rendered (gives.step (.value slot held)) shown) gives.here
  · cases property
    exact laws.holds_describe laws.holds_nil gives.here

theorem holds_contribution {member : Element}
    (gives : Throughout types (Visit.Gives holds) (.listed member)) {added : ObjectParts}
    (success : Schema.contribution render member = .ok added) :
    holds (.object added.properties) := by
  cases isContribution success with
  | optionSet isOptionSet rendered =>
    rw [laws.object_iff]
    intro entry among
    obtain ⟨schema, isOption, property⟩ := List.mem_flatMap.mp among
    obtain ⟨option, child, shown⟩ := (exists_of_mapM_eq_ok rendered).2 schema isOption
    have form := each option schema (gives.step (.option isOptionSet child)) shown
    exact laws.object_iff.mp (laws.holds_propertiesOf form) entry property
  | member slot shown _ =>
    exact laws.holds_cons (laws.holds_memberSchema each slot gives shown) laws.holds_nil
  | other _ _ => exact laws.holds_nil

theorem holds_ofMembers {steps : Nat} {members : List Element}
    (gives : ∀ member ∈ members, Throughout types (Visit.Gives holds) (.listed member))
    {schema : Schema} (success : ofMembers steps types render members = .ok schema) :
    holds (.object schema) := by
  obtain ⟨expanded, added, expands, contributed, rfl⟩ := ofMembers_eq_ok_iff.mp success
  apply laws.holds_toSchema
  rw [properties_foldl_append]
  refine laws.holds_overwrite laws.holds_nil (laws.object_iff.mpr fun entry among => ?_)
  obtain ⟨parts, isPart, property⟩ := List.mem_flatMap.mp among
  obtain ⟨member, source, success⟩ := (exists_of_mapM_eq_ok contributed).2 parts isPart
  obtain ⟨-, given, known, visits⟩ := visited_of_mem_expandWithin expands member source
  have form := laws.holds_contribution each ((gives given known).visits visits) success
  exact laws.object_iff.mp form entry property

theorem holds_ofKind {steps : Nat} {element : Element}
    (gives : Throughout types (Visit.Gives holds) (.rendered element)) {schema : Schema}
    (success : ofKind steps types render element = .ok schema) : holds (.object schema) := by
  unfold ofKind at success
  split at success
  · cases success; exact laws.holds_primitiveSchema gives.here
  · cases success; exact laws.holds_primitiveSchema gives.here
  · cases success; exact laws.holds_primitiveSchema gives.here
  · rename_i kind
    cases success
    exact laws.holds_ofChoices (gives.here.choices kind)
  · rename_i kind
    obtain ⟨items, rendered, rfl⟩ := map_eq_ok_iff.mp success
    refine laws.holds_cons (laws.string _) (laws.holds_itemSchema fun item isItem => ?_)
    obtain ⟨child, among, shown⟩ := (exists_of_mapM_eq_ok rendered).2 item isItem
    exact each child item (gives.step (.item kind among)) shown
  · rename_i kind
    exact laws.holds_ofMembers each (fun member child => gives.step (.objectMember (.inl kind) child))
      success
  · rename_i kind
    exact laws.holds_ofMembers each (fun member child => gives.step (.objectMember (.inr kind) child))
      success
  · rename_i kind
    refine laws.holds_ofMembers each (fun member single => ?_) success
    rw [List.mem_singleton.mp single]
    exact gives.step (.optionSet kind)
  · rename_i kind
    split at success
    · rename_i target found
      exact each target schema (gives.step (.target kind found)) success
    · cases success
      exact laws.holds_nil
  · cases success
    exact laws.holds_nil
  · rename_i kind
    split at success
    · rename_i base found
      exact each _ schema (gives.step (.inherit kind found)) success
    · cases success
      exact laws.holds_nil

end Members

end Schema

/-- A property of all that is taken over from visited elements holds of the schema. -/
theorem holds_schema {steps : Nat} {types : SymbolTable} {depth : Nat} {element : Element}
    {schema : Schema} (gives : Throughout types (Visit.Gives holds) (.rendered element))
    (success : renderSchemaWithin steps types depth element = .ok schema) :
    holds (.object schema) := by
  induction depth generalizing element schema with
  | zero => cases success
  | succ depth ih =>
    rw [renderSchemaWithin_succ] at success
    obtain ⟨body, contributed, finished⟩ := bind_eq_ok_iff.mp success
    have form : holds (.object body) :=
      laws.holds_ofKind (fun _ _ gives success => ih gives success) gives contributed
    exact laws.holds_widenIfNullable (laws.holds_describe form gives.here.description) finished

/-! ## Examples -/

section Example

open Example

variable {types : SymbolTable}

theorem holds_placeholder (kind : Kind) : holds (placeholder kind) := by
  unfold placeholder
  split
  · exact laws.bool true
  · exact laws.int 1
  · exact laws.string _

theorem holds_primitiveExample {kind : Kind} {element : Element}
    (gives : holds (.ofContent element.content)) : holds (Example.ofPrimitive kind element) := by
  unfold Example.ofPrimitive
  split
  · exact laws.holds_placeholder kind
  · exact gives

theorem holds_exampleContribution {render : Element → Except RenderFault Value}
    {renderMembers : List Element → Except RenderFault (Mapping Value)}
    (each : ∀ element value, Throughout types (Visit.Gives holds) (.rendered element) →
      render element = .ok value → holds value)
    (lists : ∀ members entries,
      (∀ member ∈ members, Throughout types (Visit.Gives holds) (.listed member)) →
      renderMembers members = .ok entries → holds (.object entries))
    {member : Element} (gives : Throughout types (Visit.Gives holds) (.listed member))
    {added : Mapping Value} (success : Example.contribution render renderMembers member = .ok added) :
    holds (.object added) := by
  cases Example.isContribution success with
  | firstOption isOptionSet first shown =>
    exact lists _ added (fun child among => gives.step (.firstOption isOptionSet first among)) shown
  | noOption _ _ => exact laws.holds_nil
  | value slot held shown _ =>
    exact laws.holds_cons (each _ _ (gives.step (.value slot held)) shown) laws.holds_nil
  | hidden _ _ _ _ => exact laws.holds_nil
  | incomplete _ _ => exact laws.holds_nil

end Example

/-- A property of all that is taken over from visited elements holds of the example, and of what a list
of members adds to one. -/
theorem holds_example {types : SymbolTable} (steps depth : Nat) :
    (∀ element value, Throughout types (Visit.Gives holds) (.rendered element) →
      renderExampleWithin steps types depth element = .ok value → holds value) ∧
    ∀ members entries, (∀ member ∈ members, Throughout types (Visit.Gives holds) (.listed member)) →
      renderMembersWithin steps types depth members = .ok entries →
      holds (.object entries) := by
  induction depth with
  | zero =>
    constructor
    · intro element value _ success
      rw [renderExampleWithin] at success
      cases success
    · intro members entries _ success
      rw [renderMembersWithin] at success
      cases success
  | succ depth ih =>
    obtain ⟨each, lists⟩ := ih
    constructor
    · intro element value gives success
      rw [renderExampleWithin] at success
      split at success
      · cases success
        exact laws.holds_primitiveExample (gives.here.primitive _ ‹_› rfl)
      · cases success
        exact laws.holds_primitiveExample (gives.here.primitive _ ‹_› rfl)
      · cases success
        exact laws.holds_primitiveExample (gives.here.primitive _ ‹_› rfl)
      · rename_i kind
        split at success
        · cases success
          exact laws.null
        · rename_i choice rest choices
          exact each choice value (gives.step (.firstChoice kind (by rw [choices]; rfl))) success
      · rename_i kind
        obtain ⟨items, shown, rfl⟩ := map_eq_ok_iff.mp success
        rw [laws.array_iff]
        intro item isItem
        obtain ⟨child, among, rendered⟩ := (exists_of_mapM_eq_ok shown).2 item isItem
        exact each child item (gives.step (.item kind among)) rendered
      · rename_i kind
        obtain ⟨entries, shown, rfl⟩ := map_eq_ok_iff.mp success
        exact lists _ entries (fun member child => gives.step (.objectMember (.inl kind) child)) shown
      · rename_i kind
        obtain ⟨entries, shown, rfl⟩ := map_eq_ok_iff.mp success
        exact lists _ entries (fun member child => gives.step (.objectMember (.inr kind) child)) shown
      · rename_i kind
        obtain ⟨entries, shown, rfl⟩ := map_eq_ok_iff.mp success
        refine lists _ entries (fun member single => ?_) shown
        rw [List.mem_singleton.mp single]
        exact gives.step (.optionSet kind)
      · rename_i kind
        split at success
        · rename_i target found
          exact each target value (gives.step (.target kind found)) success
        · cases success
          exact laws.null
      · cases success
        exact laws.null
      · rename_i kind
        split at success
        · rename_i base found
          exact each _ value (gives.step (.inherit kind found)) success
        · cases success
          exact laws.null
    · intro members entries gives success
      obtain ⟨expanded, added, expands, contributed, rfl⟩ := renderMembersWithin_eq_ok_iff.mp success
      refine laws.holds_overwrite laws.holds_nil (laws.object_iff.mpr fun entry among => ?_)
      obtain ⟨own, isPart, isEntry⟩ := List.mem_flatten.mp among
      obtain ⟨member, source, success⟩ := (exists_of_mapM_eq_ok contributed).2 own isPart
      obtain ⟨-, given, known, visits⟩ := visited_of_mem_expandWithin expands member source
      have form := laws.holds_exampleContribution each lists ((gives given known).visits visits) success
      exact laws.object_iff.mp form entry isEntry

end Value.FromParts

end Mson
