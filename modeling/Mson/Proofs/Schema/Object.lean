import Mson.Proofs.Schema.Contribution
import Mson.Proofs.Schema.Nullable

/-!
# What the schema of an object accepts

An object is accepted by the schema that its parts make if its properties are, if of every exclusive
group one name is missing, and if the required names are there (`ObjectParts.accepts_toSchema_iff`).
The description and the null of the element that the schema is for change nothing about objects
(`Form.accepts_finished_iff`).
-/
namespace Mson.Schema

/-! ## Descriptions and null -/

theorem accepts_describe_iff {element : Element} {schema : Schema} {json : Json} :
    (describe element schema).Accepts json ↔ schema.Accepts json := by
  unfold describe
  split
  · rename_i text _
    have annotation : ∀ value, Value.Holds descriptionKeyword value json :=
      Value.holds_of_annotation (by decide)
    rw [accepts_iff, accepts_iff]
    constructor
    · intro holds keyword value found
      by_cases isDescription : keyword = descriptionKeyword
      · exact isDescription ▸ annotation value
      · refine holds keyword value ?_
        rw [Mapping.get?_put_of_ne _ _ (Ne.symm isDescription)]
        exact found
    · intro holds keyword value found
      by_cases isDescription : keyword = descriptionKeyword
      · exact isDescription ▸ annotation value
      · rw [Mapping.get?_put_of_ne _ _ (Ne.symm isDescription)] at found
        exact holds keyword value found
  · exact Iff.rfl

/-- Null is added to what is accepted, and nothing is taken away. -/
theorem Form.accepts_widenIfNullable {schema widened : Schema} (form : schema.Form)
    {element : Element} (success : Schema.widenIfNullable element schema = .ok widened) {json : Json}
    (accepted : schema.Accepts json) : widened.Accepts json := by
  rcases eq_or_widen_of_widenIfNullable success with rfl | widens
  · exact accepted
  · obtain ⟨result, succeeds, accepts⟩ := form.widen_accepts_iff
    cases succeeds.symm.trans widens
    exact (accepts json).mpr (.inl accepted)

/-- Of what is not null, an element that is described or widened accepts just what it did before. -/
theorem Form.accepts_finished_iff {schema finished : Schema} (form : schema.Form) {element : Element}
    (success : Schema.widenIfNullable element (Schema.describe element schema) = .ok finished)
    {json : Json} (present : json ≠ .null) : finished.Accepts json ↔ schema.Accepts json := by
  have described : (Schema.describe element schema).Accepts json ↔ schema.Accepts json :=
    accepts_describe_iff
  rw [← described]
  rcases eq_or_widen_of_widenIfNullable success with rfl | widens
  · exact Iff.rfl
  · obtain ⟨result, succeeds, accepts⟩ := (form.describe element).widen_accepts_iff
    cases succeeds.symm.trans widens
    rw [accepts, or_iff_left fun isNull => present isNull.1]

/-! ## The parts of an object -/

/-- Names are not required together exactly by the objects that lack one of them. -/
theorem accepts_exclusionClause_iff {names : List String} {entries : Mapping Json} :
    Value.Accepts (exclusionClause names) (.object entries) ↔
      ∃ name ∈ names, name ∉ Mapping.names entries := by
  have required : Value.Accepts (.object [("required", .array (names.map Value.string))])
      (.object entries) ↔ ∀ name ∈ names, name ∈ Mapping.names entries := by
    simp [Value.accepts_object_iff, Mapping.get?_cons, Json.entries?]
  have clause : Value.Accepts (exclusionClause names) (.object entries) ↔
      ¬ Value.Accepts (.object [("required", .array (names.map Value.string))]) (.object entries) := by
    simp [exclusionClause, Value.accepts_object_iff, Mapping.get?_cons]
  rw [clause, required]
  simp

theorem ObjectParts.accepts_toSchema_iff {parts : ObjectParts} {entries : Mapping Json} :
    parts.toSchema.Accepts (.object entries) ↔
      (∀ name item, Mapping.get? entries name = some item → ∀ property,
        Mapping.get? parts.properties name = some property → property.Accepts item) ∧
      (∀ names ∈ parts.exclusive, ∃ name ∈ names, name ∉ Mapping.names entries) ∧
      ∀ name ∈ parts.required, name ∈ Mapping.names entries := by
  rw [accepts_iff]
  constructor
  · intro holds
    refine ⟨?_, fun names excluded => ?_, fun name required => ?_⟩
    · have properties := holds "properties" (.object parts.properties) (by simp [parts.get?_toSchema])
      rw [Value.holds_properties] at properties
      exact properties
    · have clauses := holds "allOf" (.array (parts.exclusive.map exclusionClause)) (by
        simp [parts.get?_toSchema, List.ne_nil_of_mem excluded])
      rw [Value.holds_allOf] at clauses
      exact accepts_exclusionClause_iff.mp (clauses _ (List.mem_map_of_mem excluded))
    · have names := holds "required" (.array (parts.required.map Value.string)) (by
        simp [parts.get?_toSchema, List.ne_nil_of_mem required])
      rw [Value.holds_required] at names
      exact names entries rfl name (List.mem_map_of_mem required)
  · rintro ⟨properties, exclusive, required⟩ keyword value found
    rw [parts.get?_toSchema] at found
    split at found
    · rename_i isType
      subst isType
      cases found
      exact Value.holds_type_string.mpr rfl
    split at found
    · rename_i isProperties
      subst isProperties
      cases found
      rw [Value.holds_properties]
      exact properties
    split at found
    · rename_i isExclusive
      obtain ⟨rfl, -⟩ := isExclusive
      cases found
      rw [Value.holds_allOf]
      intro clause among
      obtain ⟨names, excluded, rfl⟩ := List.mem_map.mp among
      exact accepts_exclusionClause_iff.mpr (exclusive names excluded)
    split at found
    · rename_i isRequired
      obtain ⟨rfl, -⟩ := isRequired
      cases found
      rw [Value.holds_required]
      intro fields same name among
      cases same
      obtain ⟨other, needed, spelled⟩ := List.mem_map.mp among
      cases spelled
      exact required _ needed
    · cases found

end Mson.Schema
