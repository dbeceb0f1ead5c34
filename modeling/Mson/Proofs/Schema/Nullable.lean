import Mson.Proofs.Rendering.Success
import Mson.Proofs.Schema.Acceptance

/-!
# What widening by null accepts

Widening changes one keyword, and the others go on to hold or not. All of them hold of null except
the clauses of exclusive groups: each denies that its names are required, which null, being no
object, grants for every list of names. So a widened schema accepts null besides what the schema
accepts, unless the schema has such clauses; then null stays refused.
-/
namespace Mson

theorem Json.datum_eq_null_iff {json : Json} : json.datum = .null ↔ json = .null := by
  cases json with
  | double value =>
    cases value <;> simp only [Json.datum, Value.ofJson, Value.datum, Double.datum, reduceCtorEq]
  | _ => simp only [Json.datum, Value.ofJson, Value.datum, reduceCtorEq]

theorem Json.hasType_null_iff {json : Json} : json.HasType Schema.nullType ↔ json = .null := by
  cases json <;> simp [Json.HasType, Schema.nullType]

namespace Schema

/-- A list of choices as the only constraint. -/
theorem accepts_enumerated_iff {schema : Schema} {choices : List Value} {json : Json}
    (listed : Mapping.get? schema "enum" = some (.array choices))
    (alone : ∀ keyword, keyword ≠ "enum" → keyword ≠ descriptionKeyword →
      Mapping.get? schema keyword = none) :
    schema.Accepts json ↔ ∃ choice ∈ choices, choice.datum = json.datum := by
  rw [accepts_iff, ← Value.holds_enum]
  constructor
  · exact fun holds => holds "enum" _ listed
  · intro holds keyword value found
    by_cases isEnum : keyword = "enum"
    · subst isEnum
      rw [listed] at found
      cases found
      exact holds
    · by_cases isDescription : keyword = descriptionKeyword
      · exact Value.holds_of_annotation (by subst isDescription; decide) value
      · rw [alone keyword isEnum isDescription] at found
        cases found

theorem accepts_unconstrained {schema : Schema}
    (silent : ∀ keyword, keyword ≠ descriptionKeyword → Mapping.get? schema keyword = none)
    (json : Json) : schema.Accepts json := by
  rw [accepts_iff]
  intro keyword value found
  by_cases isDescription : keyword = descriptionKeyword
  · exact Value.holds_of_annotation (by subst isDescription; decide) value
  · rw [silent keyword isDescription] at found
    cases found

/-- Whether every keyword but the type holds. -/
def AcceptsApartFromType (schema : Schema) (json : Json) : Prop :=
  ∀ keyword value, keyword ≠ "type" → Mapping.get? schema keyword = some value →
    Value.Holds keyword value json

theorem accepts_iff_type {schema : Schema} {type : Value} {json : Json}
    (declared : Mapping.get? schema "type" = some type) :
    schema.Accepts json ↔
      Value.Holds "type" type json ∧ schema.AcceptsApartFromType json := by
  rw [accepts_iff]
  constructor
  · exact fun holds => ⟨holds "type" type declared, fun keyword value _ => holds keyword value⟩
  · rintro ⟨typed, others⟩ keyword value found
    by_cases isType : keyword = "type"
    · subst isType
      rw [declared] at found
      cases found
      exact typed
    · exact others keyword value isType found

theorem requirement_accepts_null (names : List Value) :
    Value.Accepts (.object [("required", .array names)]) .null := by
  rw [Value.accepts_object_iff]
  intro keyword value found
  rw [Mapping.get?_cons] at found
  split at found
  · rename_i isRequired
    cases found
    subst isRequired
    simp [Json.entries?]
  · cases found

theorem exclusionClause_refuses_null (group : List String) :
    ¬ Value.Accepts (exclusionClause group) .null := by
  unfold exclusionClause
  rw [Value.accepts_object_iff]
  intro holds
  have denied := holds "not" _ (Mapping.get?_cons_self ..)
  rw [Value.holds_not] at denied
  exact denied (requirement_accepts_null _)

/-- Of the keywords that go with a type, only exclusive groups say anything about null. -/
theorem typed_acceptsApartFromType_null_iff {schema : Schema}
    (only : ∀ keyword, keyword ∉ typedKeywords → Mapping.get? schema keyword = none)
    (exclusive : ∀ clauses, Mapping.get? schema "allOf" = some clauses →
      ∃ group groups, clauses = .array ((group :: groups).map exclusionClause)) :
    schema.AcceptsApartFromType .null ↔ Mapping.get? schema "allOf" = none := by
  constructor
  · intro holds
    cases found : Mapping.get? schema "allOf" with
    | none => rfl
    | some clauses =>
      exfalso
      obtain ⟨group, groups, rfl⟩ := exclusive clauses found
      have clausesHold := holds "allOf" _ (by decide) found
      rw [Value.holds_allOf] at clausesHold
      exact exclusionClause_refuses_null group (clausesHold _ (by simp))
  · intro free keyword value noType found
    by_cases known : keyword ∈ typedKeywords
    · simp only [typedKeywords, List.mem_cons, List.not_mem_nil, or_false] at known
      rcases known with rfl | rfl | rfl | rfl | rfl | rfl | rfl
      · exact absurd rfl noType
      · exact Value.holds_of_annotation (by decide) value
      · cases value with
        | collection items => cases items <;> simp [Value.Holds]
        | _ => simp [Value.Holds, Json.items]
      · cases value with
        | collection items => cases items <;> simp [Value.Holds]
        | _ => simp [Value.Holds, Json.field?, Json.entries?]
      · rw [free] at found
        cases found
      · cases value with
        | collection items => cases items <;> simp [Value.Holds]
        | _ => simp [Value.Holds, Json.entries?]
      · exact Value.holds_of_annotation (by decide) value
    · rw [only keyword known] at found
      cases found

theorem holds_type_iff {name : String} {type : Value} {json : Json}
    (declared : type = .string name ∨ type = .array [.string name, .string nullType]) :
    Value.Holds "type" (.array [.string name, .string nullType]) json ↔
      Value.Holds "type" type json ∨ json = .null := by
  rw [← Json.hasType_null_iff]
  rcases declared with rfl | rfl
  · simp
  · simp only [Value.holds_type_array, List.mem_cons, Value.string.injEq, List.not_mem_nil, or_false]
    constructor
    · exact Or.inl
    · rintro (typed | isNull)
      · exact typed
      · exact ⟨nullType, .inr rfl, isNull⟩

/-- What a widened schema accepts, for every form of rendered schemas. -/
theorem Form.widen_accepts_iff {schema : Schema} (form : schema.Form) :
    ∃ widened, widen schema = .ok widened ∧ ∀ json, widened.Accepts json ↔
      schema.Accepts json ∨ json = .null ∧ Mapping.get? schema "allOf" = none := by
  cases form with
  | unconstrained silent =>
    refine ⟨schema, widen_unconstrained silent, fun json => ?_⟩
    simp [accepts_unconstrained silent json]
  | enumerated choices listed alone =>
    refine ⟨_, widen_enumerated listed alone, fun json => ?_⟩
    have free := alone "allOf" (by decide) (by decide)
    by_cases nullable : choices.any Value.isNull = true
    · rw [if_pos nullable, accepts_enumerated_iff listed alone]
      have chosen := Value.any_isNull_iff.mp nullable
      constructor
      · exact Or.inl
      · rintro (accepted | ⟨rfl, -⟩)
        · exact accepted
        · exact ⟨.null, chosen, rfl⟩
    · have longer : Mapping.get? (Mapping.put schema "enum" (.array (choices ++ [.null]))) "enum" =
          some (.array (choices ++ [.null])) := Mapping.get?_put_self ..
      have nullDenoted : Value.null.datum = json.datum ↔ json = .null := by
        rw [eq_comm, ← Json.datum_eq_null_iff]
        rfl
      rw [if_neg nullable, accepts_enumerated_iff listed alone, accepts_enumerated_iff longer]
      · simp only [List.mem_append, List.mem_singleton, or_and_right, exists_or, exists_eq_left,
          nullDenoted, free, and_true]
      · intro keyword noEnum noDescription
        rw [Mapping.get?_put_of_ne _ _ (Ne.symm noEnum), alone keyword noEnum noDescription]
  | typed name notNull declared only exclusive =>
    obtain ⟨widened, success, pair, kept⟩ := widen_typed notNull declared
    refine ⟨widened, success, fun json => ?_⟩
    obtain ⟨type, declaration, shape⟩ : ∃ type, Mapping.get? schema "type" = some type ∧
        (type = .string name ∨ type = .array [.string name, .string nullType]) := by
      rcases declared with single | double
      · exact ⟨_, single, .inl rfl⟩
      · exact ⟨_, double, .inr rfl⟩
    have others : widened.AcceptsApartFromType json ↔ schema.AcceptsApartFromType json := by
      unfold AcceptsApartFromType
      constructor
      · exact fun holds keyword value noType found =>
          holds keyword value noType ((kept keyword noType).trans found)
      · exact fun holds keyword value noType found =>
          holds keyword value noType ((kept keyword noType).symm.trans found)
    rw [accepts_iff_type pair, accepts_iff_type declaration, others, holds_type_iff shape,
      ← typed_acceptsApartFromType_null_iff only exclusive, or_and_right]
    constructor
    · rintro (typed | ⟨rfl, apart⟩)
      · exact .inl typed
      · exact .inr ⟨rfl, apart⟩
    · rintro (typed | ⟨rfl, apart⟩)
      · exact .inl typed
      · exact .inr ⟨rfl, apart⟩

/-- A schema with exclusive groups refuses null. -/
theorem Form.refuses_null {schema : Schema} (form : schema.Form) {clauses : Value}
    (exclusive : Mapping.get? schema "allOf" = some clauses) : ¬ schema.Accepts .null := by
  intro accepted
  cases form with
  | unconstrained silent =>
    rw [silent _ (by decide)] at exclusive
    cases exclusive
  | enumerated choices listed alone =>
    rw [alone _ (by decide) (by decide)] at exclusive
    cases exclusive
  | typed name notNull declared only groups =>
    have free := (typed_acceptsApartFromType_null_iff only groups).mp
      fun keyword value _ => accepts_iff.mp accepted keyword value
    rw [free] at exclusive
    cases exclusive

end Schema

/-- Widening a rendered schema adds null and nothing else, if and only if the schema has no exclusive
groups; those refuse null before and after. -/
theorem widen_adds_null_iff {types : SymbolTable} {element : Element} {steps depth : Nat}
    (parsedTypes : types.Parsed) (parsed : element.Parsed)
    (ends : Settled (renderSchemaWithin steps types depth element)) :
    ∃ schema widened, renderSchemaWithin steps types depth element = .ok schema ∧
      schema.widen = .ok widened ∧
      (∀ json, widened.Accepts json ↔
        schema.Accepts json ∨ json = .null ∧ Mapping.get? schema "allOf" = none) ∧
      ((∀ json, widened.Accepts json ↔ json = .null ∨ schema.Accepts json) ↔
        Mapping.get? schema "allOf" = none) := by
  obtain ⟨schema, renders⟩ := exists_schema_of_settled parsedTypes parsed ends
  have form := renderSchemaWithin_form renders
  obtain ⟨widened, widens, accepts⟩ := form.widen_accepts_iff
  refine ⟨schema, widened, renders, widens, accepts, fun onlyNull => ?_, fun free json => ?_⟩
  · cases exclusive : Mapping.get? schema "allOf" with
    | none => rfl
    | some clauses =>
      exfalso
      have accepted : widened.Accepts .null := (onlyNull .null).mpr (.inl rfl)
      rcases (accepts .null).mp accepted with before | ⟨-, free⟩
      · exact form.refuses_null exclusive before
      · rw [exclusive] at free
        cases free
  · rw [accepts, free, and_iff_left rfl, or_comm]

theorem widen_adds_null_string :
    ∃ schema widened, renderSchema [] ⟨"string", .absent, [], []⟩ = .ok schema ∧
      schema.widen = .ok widened ∧
      ∀ json, widened.Accepts json ↔ json = .null ∨ schema.Accepts json := by
  have parsed : Element.Parsed ⟨"string", .absent, [], []⟩ :=
    ⟨.object [("element", .string "string")], by decide, rfl⟩
  have noTypes : SymbolTable.Parsed [] := fun _ member => absurd member List.not_mem_nil
  have ends : Settled (renderSchemaWithin expansionSteps [] renderDepth
      ⟨"string", .absent, [], []⟩) := settled_ok _
  obtain ⟨schema, widened, renders, widens, -, precise⟩ := widen_adds_null_iff noTypes parsed ends
  refine ⟨schema, widened, renders, widens, precise.mpr ?_⟩
  cases renders
  rfl

namespace ExclusiveGroup

def option (key : String) : Element :=
  ⟨"option", .children [⟨"member", .member ⟨"string", .literal (.string key), [], []⟩
    (some ⟨"string", .absent, [], []⟩), [], []⟩], [], []⟩

/-- A nullable object of which two properties exclude one another. -/
def element : Element :=
  ⟨"object", .children [⟨"select", .children [option "a", option "b"], [], []⟩], [],
    [(flagsAttribute, .array [.string nullableFlag])]⟩

def optionNode (key : String) : Json :=
  .object [("element", .string "option"), ("content", .array
    [.object [("element", .string "member"), ("content", .object
      [("key", .object [("element", .string "string"), ("content", .string key)]),
        ("value", .object [("element", .string "string")])])]])]

def node : Json :=
  .object [("element", .string "object"),
    ("attributes", .object [("typeAttributes", .array [.string "nullable"])]),
    ("content", .array [.object [("element", .string "select"),
      ("content", .array [optionNode "a", optionNode "b"])]])]

def schema : Schema :=
  [("type", .array [.string "object", .string "null"]),
    ("properties", .object [("a", .object [("type", .string "string")]),
      ("b", .object [("type", .string "string")])]),
    ("allOf", .array [.object [("not", .object [("required", .array [.string "a", .string "b"])])]])]

/-- The schema names null among its types and refuses it all the same. -/
theorem widen_refuses_null_exclusive :
    element.Parsed ∧ renderSchema [] element = .ok schema ∧ schema.widen = .ok schema ∧
      ¬ schema.Accepts .null := by
  have renders : renderSchema [] element = .ok schema := rfl
  have form : schema.Form := renderSchemaWithin_form renders
  exact ⟨⟨node, by decide, rfl⟩, renders, rfl, form.refuses_null rfl⟩

end ExclusiveGroup

end Mson
