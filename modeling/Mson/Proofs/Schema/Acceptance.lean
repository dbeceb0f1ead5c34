import Mson.Proofs.Datum
import Mson.Schema.Widening

/-!
# What a schema accepts

The draft-04 meaning of the keywords that rendered schemas use: `type`, `enum`, `properties`,
`required`, `items`, `anyOf`, `allOf` and `not`. Each keyword is read by its value alone and other
keywords say nothing, so a schema accepts an instance if every keyword holds of it. Keywords for
objects hold of whatever is no object, and `items` of whatever is no array.

`accepts_iff` reads a schema through `Mapping.get?`; `accepts_iff_of_equal` says that structurally
equal schemas accept the same instances.
-/
namespace Mson

/-- The items of an array; other values have none. -/
def Json.items : Json → List Json
  | .array items => items
  | _ => []

/-- Whether a value is of the type with the given name. Numbers are finite. -/
def Json.HasType (name : String) : Json → Prop
  | .null => name = "null"
  | .bool _ => name = "boolean"
  | .int _ => name = "number" ∨ name = "integer"
  | .double value => name = "number" ∧ value.units?.isSome
  | .string _ => name = "string"
  | .array _ => name = "array"
  | .object _ => name = "object"

namespace Value

mutual

/-- Whether a value that is read as a schema accepts an instance. -/
def Accepts : Value → Json → Prop
  | .object keywords, json => ∀ keyword, KeywordHolds keyword keywords json
  | _, _ => False

/-- Whether the keyword, if it is there, holds of an instance. -/
def KeywordHolds (keyword : String) : List (String × Value) → Json → Prop
  | [], _ => True
  | (name, value) :: keywords, json =>
      if name = keyword then Holds keyword value json else KeywordHolds keyword keywords json

/-- Whether a keyword with the given value holds of an instance. The empty collection is the empty
array: no type, choice or alternative is among it. -/
def Holds (keyword : String) : Value → Json → Prop
  | .string name, json => keyword = "type" → json.HasType name
  | .array values, json =>
      (keyword = "type" → ∃ name, Value.string name ∈ values ∧ json.HasType name) ∧
      (keyword = "enum" → ∃ choice ∈ values, choice.datum = json.datum) ∧
      (keyword = "required" → ∀ entries, json.entries? = some entries →
        ∀ name, Value.string name ∈ values → name ∈ Mapping.names entries) ∧
      (keyword = "anyOf" → AcceptedByAny values json) ∧
      (keyword = "allOf" → AcceptedByAll values json)
  | .object entries, json =>
      (keyword = "properties" →
        ∀ name item, json.field? name = some item → Permits name entries item) ∧
      (keyword = "items" → ∀ item ∈ json.items, ∀ inner, KeywordHolds inner entries item) ∧
      (keyword = "not" → ¬ ∀ inner, KeywordHolds inner entries json)
  | .collection [], _ => keyword ≠ "type" ∧ keyword ≠ "enum" ∧ keyword ≠ "anyOf"
  | _, _ => True

/-- Whether the property schema under a name, if there is one, accepts an instance. -/
def Permits (name : String) : List (String × Value) → Json → Prop
  | [], _ => True
  | (other, schema) :: properties, json =>
      if other = name then Accepts schema json else Permits name properties json

def AcceptedByAny : List Value → Json → Prop
  | [], _ => False
  | schema :: schemas, json => Accepts schema json ∨ AcceptedByAny schemas json

def AcceptedByAll : List Value → Json → Prop
  | [], _ => True
  | schema :: schemas, json => Accepts schema json ∧ AcceptedByAll schemas json

end

variable {json : Json}

theorem keywordHolds_iff {keyword : String} {keywords : Mapping Value} :
    KeywordHolds keyword keywords json ↔
      ∀ value, Mapping.get? keywords keyword = some value → Holds keyword value json := by
  induction keywords with
  | nil => simp [KeywordHolds]
  | cons entry rest ih =>
    obtain ⟨name, value⟩ := entry
    rw [KeywordHolds, Mapping.get?_cons]
    split
    · simp
    · exact ih

theorem accepts_object_iff {keywords : Mapping Value} :
    Accepts (.object keywords) json ↔
      ∀ keyword value, Mapping.get? keywords keyword = some value → Holds keyword value json := by
  simp only [Accepts, keywordHolds_iff]

theorem permits_iff {name : String} {properties : Mapping Value} :
    Permits name properties json ↔
      ∀ schema, Mapping.get? properties name = some schema → Accepts schema json := by
  induction properties with
  | nil => simp [Permits]
  | cons entry rest ih =>
    obtain ⟨other, schema⟩ := entry
    rw [Permits, Mapping.get?_cons]
    split
    · simp
    · exact ih

theorem acceptedByAny_iff {schemas : List Value} :
    AcceptedByAny schemas json ↔ ∃ schema ∈ schemas, Accepts schema json := by
  induction schemas with
  | nil => simp [AcceptedByAny]
  | cons schema rest ih => simp [AcceptedByAny, ih]

theorem acceptedByAll_iff {schemas : List Value} :
    AcceptedByAll schemas json ↔ ∀ schema ∈ schemas, Accepts schema json := by
  induction schemas with
  | nil => simp [AcceptedByAll]
  | cons schema rest ih => simp [AcceptedByAll, ih]

/-! ## The keywords one by one -/

theorem holds_array_iff {keyword : String} {values : List Value} :
    Holds keyword (.array values) json ↔
      (keyword = "type" → ∃ name, Value.string name ∈ values ∧ json.HasType name) ∧
      (keyword = "enum" → ∃ choice ∈ values, choice.datum = json.datum) ∧
      (keyword = "required" → ∀ entries, json.entries? = some entries →
        ∀ name, Value.string name ∈ values → name ∈ Mapping.names entries) ∧
      (keyword = "anyOf" → ∃ schema ∈ values, Accepts schema json) ∧
      (keyword = "allOf" → ∀ schema ∈ values, Accepts schema json) := by
  rw [← acceptedByAny_iff, ← acceptedByAll_iff]
  exact Iff.rfl

theorem holds_object_iff {keyword : String} {entries : Mapping Value} :
    Holds keyword (.object entries) json ↔
      (keyword = "properties" → ∀ name item, json.field? name = some item →
        ∀ schema, Mapping.get? entries name = some schema → Accepts schema item) ∧
      (keyword = "items" → ∀ item ∈ json.items, Accepts (.object entries) item) ∧
      (keyword = "not" → ¬ Accepts (.object entries) json) := by
  simp only [← permits_iff]
  exact Iff.rfl

@[simp] theorem holds_type_string {name : String} :
    Holds "type" (.string name) json ↔ json.HasType name :=
  forall_prop_of_true rfl

@[simp] theorem holds_type_array {names : List Value} :
    Holds "type" (.array names) json ↔ ∃ name, Value.string name ∈ names ∧ json.HasType name := by
  simp [holds_array_iff]

@[simp] theorem holds_enum {choices : List Value} :
    Holds "enum" (.array choices) json ↔ ∃ choice ∈ choices, choice.datum = json.datum := by
  simp [holds_array_iff]

@[simp] theorem holds_required {names : List Value} :
    Holds "required" (.array names) json ↔ ∀ entries, json.entries? = some entries →
      ∀ name, Value.string name ∈ names → name ∈ Mapping.names entries := by
  simp [holds_array_iff]

@[simp] theorem holds_anyOf {schemas : List Value} :
    Holds "anyOf" (.array schemas) json ↔ ∃ schema ∈ schemas, Accepts schema json := by
  simp [holds_array_iff]

@[simp] theorem holds_allOf {schemas : List Value} :
    Holds "allOf" (.array schemas) json ↔ ∀ schema ∈ schemas, Accepts schema json := by
  simp [holds_array_iff]

@[simp] theorem holds_properties {properties : Mapping Value} :
    Holds "properties" (.object properties) json ↔ ∀ name item, json.field? name = some item →
      ∀ schema, Mapping.get? properties name = some schema → Accepts schema item := by
  simp [holds_object_iff]

@[simp] theorem holds_items {keywords : Mapping Value} :
    Holds "items" (.object keywords) json ↔
      ∀ item ∈ json.items, Accepts (.object keywords) item := by
  simp [holds_object_iff]

@[simp] theorem holds_not {keywords : Mapping Value} :
    Holds "not" (.object keywords) json ↔ ¬ Accepts (.object keywords) json := by
  simp [holds_object_iff]

/-- The keywords of draft-04 that constrain what is accepted. -/
def constraintKeywords : List String :=
  ["type", "enum", "required", "anyOf", "allOf", "properties", "items", "not"]

/-- Every other keyword says nothing. -/
theorem holds_of_annotation {keyword : String} (unknown : keyword ∉ constraintKeywords)
    (value : Value) : Holds keyword value json := by
  simp only [constraintKeywords, List.mem_cons, List.not_mem_nil, or_false, not_or] at unknown
  obtain ⟨type, enum, required, anyOf, allOf, properties, items, no⟩ := unknown
  cases value with
  | collection children =>
    cases children <;> simp [Holds, type, enum, anyOf]
  | _ => simp [Holds, type, enum, required, anyOf, allOf, properties, items, no]

/-! ## Equal schemas -/

mutual

/-- Structurally equal values constrain the same, as a schema and as the value of a keyword. -/
theorem accepts_holds_of_equal :
    ∀ left right : Value, equal left right = true →
      (∀ json, Accepts left json ↔ Accepts right json) ∧
        ∀ keyword json, Holds keyword left json ↔ Holds keyword right json
  | .null, right, same => by
    cases right <;> simp [equal] at same
    exact ⟨fun _ => Iff.rfl, fun _ _ => Iff.rfl⟩
  | .bool _, right, same => by
    cases right <;> simp [equal] at same
    exact ⟨fun _ => Iff.rfl, fun _ _ => Iff.rfl⟩
  | .int _, right, same => by
    cases right <;> simp [equal] at same
    all_goals exact ⟨fun _ => Iff.rfl, fun _ _ => Iff.rfl⟩
  | .double _, right, same => by
    cases right <;> simp [equal] at same
    all_goals exact ⟨fun _ => Iff.rfl, fun _ _ => Iff.rfl⟩
  | .string left, right, same => by
    cases right <;> simp [equal] at same
    subst same
    exact ⟨fun _ => Iff.rfl, fun _ _ => Iff.rfl⟩
  | .array left, right, same => by
    cases right with
    | array right =>
      simp only [equal] at same
      obtain ⟨accepted, named, denoted⟩ := members_of_equalItems left right same
      refine ⟨fun json => by simp [Accepts], fun keyword json => ?_⟩
      simp only [Holds, named, denoted, accepted json]
    | collection right =>
      simp only [equal, Bool.and_eq_true, List.isEmpty_iff] at same
      obtain ⟨rfl, rfl⟩ := same
      exact ⟨fun json => by simp [Accepts],
        fun keyword json => by simp [Holds, AcceptedByAny, AcceptedByAll]⟩
    | _ => simp [equal] at same
  | .object left, right, same => by
    cases right with
    | object right =>
      simp only [equal, Bool.and_eq_true, List.all_eq_true, Mapping.has_iff] at same
      obtain ⟨covered, same⟩ := same
      have keywords : ∀ name json, KeywordHolds name left json ↔ KeywordHolds name right json := by
        intro name json
        by_cases named : name ∈ Mapping.names left
        · exact (keyword_of_equalEntries left right same name named json).1
        · have absent : name ∉ Mapping.names right := fun there => named (covered name there)
          simp only [keywordHolds_iff, Mapping.get?_eq_none_iff.mpr named,
            Mapping.get?_eq_none_iff.mpr absent]
      have properties : ∀ name json, Permits name left json ↔ Permits name right json := by
        intro name json
        by_cases named : name ∈ Mapping.names left
        · exact (keyword_of_equalEntries left right same name named json).2
        · have absent : name ∉ Mapping.names right := fun there => named (covered name there)
          simp only [permits_iff, Mapping.get?_eq_none_iff.mpr named,
            Mapping.get?_eq_none_iff.mpr absent]
      exact ⟨fun json => by simp only [Accepts, keywords],
        fun keyword json => by simp only [Holds, keywords, properties]⟩
    | _ => simp [equal] at same
  | .collection left, right, same => by
    cases right with
    | array right =>
      simp only [equal, Bool.and_eq_true, List.isEmpty_iff] at same
      obtain ⟨rfl, rfl⟩ := same
      exact ⟨fun json => by simp [Accepts],
        fun keyword json => by simp [Holds, AcceptedByAny, AcceptedByAll]⟩
    | collection right =>
      refine ⟨fun json => by simp [Accepts], fun keyword json => ?_⟩
      cases left <;> cases right <;> simp [equal, Element.looseEqItems, Holds] at same ⊢
    | _ => simp [equal] at same
  | .member _ _, right, same => by
    cases right <;> simp [equal] at same
    exact ⟨fun _ => by simp [Accepts], fun _ _ => by simp [Holds]⟩

theorem members_of_equalItems :
    ∀ left right : List Value, equalItems left right = true →
      (∀ json, (AcceptedByAny left json ↔ AcceptedByAny right json) ∧
        (AcceptedByAll left json ↔ AcceptedByAll right json)) ∧
      (∀ name, Value.string name ∈ left ↔ Value.string name ∈ right) ∧
      ∀ datum, (∃ choice ∈ left, choice.datum = datum) ↔ ∃ choice ∈ right, choice.datum = datum
  | [], right, same => by
    cases right <;> simp [equalItems] at same
    exact ⟨fun _ => ⟨Iff.rfl, Iff.rfl⟩, fun _ => Iff.rfl, fun _ => Iff.rfl⟩
  | left :: lefts, right, same => by
    cases right with
    | nil => simp [equalItems] at same
    | cons right rights =>
      simp only [equalItems, Bool.and_eq_true] at same
      have first := (accepts_holds_of_equal left right same.1).1
      have string : ∀ name, Value.string name = left ↔ Value.string name = right := by
        intro name
        cases left <;> cases right <;> simp [equal] at same ⊢
        rw [same.1]
      obtain ⟨rest, named, denoted⟩ := members_of_equalItems lefts rights same.2
      refine ⟨fun json => ?_, fun name => ?_, fun datum => ?_⟩
      · simp only [AcceptedByAny, AcceptedByAll, first json, rest json, and_self]
      · simp only [List.mem_cons, string, named]
      · simp only [List.mem_cons, or_and_right, exists_or, exists_eq_left,
          datum_eq_of_equal left right same.1, denoted]

theorem keyword_of_equalEntries :
    ∀ (left : List (String × Value)) (right : Mapping Value), equalEntries left right = true →
      ∀ name ∈ Mapping.names left, ∀ json,
        (KeywordHolds name left json ↔ KeywordHolds name right json) ∧
          (Permits name left json ↔ Permits name right json)
  | [], _, _, _, named, _ => by simp at named
  | (name, left) :: lefts, right, same, wanted, named, json => by
    simp only [equalEntries, Bool.and_eq_true] at same
    obtain ⟨first, rest⟩ := same
    by_cases here : name = wanted
    · subst here
      split at first
      · rename_i found present
        obtain ⟨accepted, held⟩ := accepts_holds_of_equal left found first
        have keyword : KeywordHolds name right json ↔ Holds name found json := by
          simp [keywordHolds_iff, present]
        have property : Permits name right json ↔ Accepts found json := by
          simp [permits_iff, present]
        rw [keyword, property, KeywordHolds, if_pos rfl, Permits, if_pos rfl]
        exact ⟨held name json, accepted json⟩
      · cases first
    · rw [Mapping.names_cons, List.mem_cons] at named
      have further := named.resolve_left (Ne.symm here)
      rw [KeywordHolds, if_neg here, Permits, if_neg here]
      exact keyword_of_equalEntries lefts right rest wanted further json

end

end Value

/-- Whether a schema accepts an instance. -/
def Schema.Accepts (schema : Schema) (json : Json) : Prop := (Value.object schema).Accepts json

namespace Schema

theorem accepts_iff {schema : Schema} {json : Json} :
    schema.Accepts json ↔
      ∀ keyword value, Mapping.get? schema keyword = some value → Value.Holds keyword value json :=
  Value.accepts_object_iff

/-- Structurally equal schemas accept the same instances. -/
theorem accepts_iff_of_equal {left right : Schema}
    (same : Value.equal (.object left) (.object right) = true) (json : Json) :
    left.Accepts json ↔ right.Accepts json :=
  (Value.accepts_holds_of_equal _ _ same).1 json

end Schema

end Mson
