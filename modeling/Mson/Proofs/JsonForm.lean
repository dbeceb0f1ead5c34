import Mson.Proofs.Mapping
import Mson.Value

/-!
# Values with a JSON form

A value has a JSON form if it holds no element anywhere. Lists and objects have one if all their items
do, JSON itself always has one, and the content of an element has one if no elements stand in it
(`Content.IsPlain`).
-/
namespace Mson

namespace Value

/-- Whether a value has a JSON form. -/
def IsJson (value : Value) : Prop := ∃ json, value.toJson? = some json

theorem toItems?_cons (value : Value) (values : List Value) :
    toItems? (value :: values) = (do return (← toJson? value) :: (← toItems? values)) := rfl

theorem toEntries?_cons (name : String) (value : Value) (entries : Mapping Value) :
    toEntries? ((name, value) :: entries) =
      (do return (name, ← toJson? value) :: (← toEntries? entries)) := rfl

theorem exists_toItems? {values : List Value}
    (each : ∀ value ∈ values, ∃ json, value.toJson? = some json) :
    ∃ items, toItems? values = some items ∧
      ∀ item ∈ items, ∃ value ∈ values, value.toJson? = some item := by
  induction values with
  | nil => exact ⟨[], rfl, fun _ member => by cases member⟩
  | cons value rest ih =>
    obtain ⟨⟨first, found⟩, later⟩ := List.forall_mem_cons.mp each
    obtain ⟨others, success, back⟩ := ih later
    refine ⟨first :: others, by simp [toItems?_cons, found, success], ?_⟩
    refine List.forall_mem_cons.mpr ⟨⟨value, List.mem_cons_self, found⟩, fun item member => ?_⟩
    obtain ⟨source, among, same⟩ := back item member
    exact ⟨source, List.mem_cons_of_mem _ among, same⟩

theorem exists_toEntries? {values : Mapping Value}
    (each : ∀ entry ∈ values, ∃ json, entry.2.toJson? = some json) :
    ∃ entries, toEntries? values = some entries ∧ Mapping.names entries = Mapping.names values ∧
      ∀ name item, Mapping.get? entries name = some item →
        ∃ value, Mapping.get? values name = some value ∧ value.toJson? = some item := by
  induction values with
  | nil => exact ⟨[], rfl, rfl, fun _ _ found => by cases found⟩
  | cons entry rest ih =>
    obtain ⟨name, value⟩ := entry
    obtain ⟨⟨first, found⟩, later⟩ := List.forall_mem_cons.mp each
    obtain ⟨others, success, names, back⟩ := ih later
    refine ⟨(name, first) :: others, ?_, ?_, fun wanted item present => ?_⟩
    · have found : value.toJson? = some first := found
      simp [toEntries?_cons, found, success]
    · rw [Mapping.names_cons, Mapping.names_cons, names]
    · rw [Mapping.get?_cons] at present ⊢
      split at present
      · rename_i same
        cases present
        exact ⟨value, if_pos same, found⟩
      · rename_i other
        rw [if_neg other]
        exact back wanted item present

theorem isJson_array_iff {values : List Value} :
    (Value.array values).IsJson ↔ ∀ value ∈ values, value.IsJson := by
  constructor
  · rintro ⟨json, form⟩
    obtain ⟨items, success, -⟩ := Option.map_eq_some_iff.mp form
    clear form
    induction values generalizing items with
    | nil => exact fun _ member => absurd member List.not_mem_nil
    | cons value rest ih =>
      obtain ⟨first, here, others, later, -⟩ := by
        simpa [toItems?_cons, Option.bind_eq_some_iff] using success
      exact List.forall_mem_cons.mpr ⟨⟨first, here⟩, ih others later⟩
  · intro each
    obtain ⟨items, success, -⟩ := exists_toItems? each
    exact ⟨.array items, Option.map_eq_some_iff.mpr ⟨items, success, rfl⟩⟩

theorem isJson_object_iff {entries : Mapping Value} :
    (Value.object entries).IsJson ↔ ∀ entry ∈ entries, entry.2.IsJson := by
  constructor
  · rintro ⟨json, form⟩
    obtain ⟨converted, success, -⟩ := Option.map_eq_some_iff.mp form
    clear form
    induction entries generalizing converted with
    | nil => exact fun _ member => absurd member List.not_mem_nil
    | cons entry rest ih =>
      obtain ⟨name, value⟩ := entry
      obtain ⟨first, here, others, later, -⟩ := by
        simpa [toEntries?_cons, Option.bind_eq_some_iff] using success
      exact List.forall_mem_cons.mpr ⟨⟨first, here⟩, ih others later⟩
  · intro each
    obtain ⟨converted, success, -⟩ := exists_toEntries? each
    exact ⟨.object converted, Option.map_eq_some_iff.mpr ⟨converted, success, rfl⟩⟩

theorem isJson_string (text : String) : (Value.string text).IsJson := ⟨.string text, rfl⟩

mutual

theorem toJson?_ofJson : (json : Json) → (ofJson json).toJson? = some json
  | .null | .bool _ | .int _ | .double _ | .string _ => rfl
  | .array items => Option.map_eq_some_iff.mpr ⟨items, toItems?_ofItems items, rfl⟩
  | .object entries => Option.map_eq_some_iff.mpr ⟨entries, toEntries?_ofEntries entries, rfl⟩

theorem toItems?_ofItems : (items : List Json) → toItems? (ofItems items) = some items
  | [] => rfl
  | item :: items => by
    rw [ofItems, toItems?_cons, toJson?_ofJson item, toItems?_ofItems items]
    rfl

theorem toEntries?_ofEntries :
    (entries : List (String × Json)) → toEntries? (ofEntries entries) = some entries
  | [] => rfl
  | (name, value) :: entries => by
    rw [ofEntries, toEntries?_cons, toJson?_ofJson value, toEntries?_ofEntries entries]
    rfl

end

theorem isJson_ofJson (json : Json) : (ofJson json).IsJson := ⟨json, toJson?_ofJson json⟩

end Value

/-- Whether no elements stand in a content. -/
def Content.IsPlain : Content → Prop
  | .absent | .literal _ => True
  | .children items => items = []
  | .member _ _ => False

theorem Content.isJson_ofContent_iff {content : Content} :
    (Value.ofContent content).IsJson ↔ content.IsPlain := by
  cases content with
  | absent => exact ⟨fun _ => trivial, fun _ => ⟨.null, rfl⟩⟩
  | literal value => exact ⟨fun _ => trivial, fun _ => Value.isJson_ofJson value⟩
  | member key value =>
    constructor
    · rintro ⟨_, form⟩
      cases form
    · exact False.elim
  | children items =>
    cases items with
    | nil => exact ⟨fun _ => rfl, fun _ => ⟨.array [], rfl⟩⟩
    | cons item items =>
      constructor
      · rintro ⟨_, form⟩
        cases form
      · intro empty
        cases empty

end Mson
