import Mson.Proofs.Json.Result
import Mson.Proofs.Refract.Grammar
import Mson.Proofs.Rendering.Composition

/-!
# Finite renderings

Rendering makes no doubles of its own. Where no double of a document is NaN or infinite, parsing makes
elements of it that hold none (`allFinite_of_parse`), the visited elements hold none, and there is none
in what is rendered of them (`allFinite_schema`, `allFinite_example`).
-/
namespace Mson

/-! ## Values -/

namespace Value

mutual

/-- Whether no double in a value is NaN or infinite. The elements in it are left aside. -/
def AllFinite : Value → Prop
  | .double value => value.IsFinite
  | .array items => ItemsFinite items
  | .object entries => EntriesFinite entries
  | .null | .bool _ | .int _ | .string _ | .collection _ | .member _ _ => True

def ItemsFinite : List Value → Prop
  | [] => True
  | item :: items => item.AllFinite ∧ ItemsFinite items

def EntriesFinite : List (String × Value) → Prop
  | [] => True
  | (_, value) :: entries => value.AllFinite ∧ EntriesFinite entries

end

theorem itemsFinite_iff {items : List Value} :
    ItemsFinite items ↔ ∀ item ∈ items, item.AllFinite := by
  induction items with
  | nil => simp [ItemsFinite]
  | cons item rest ih => simp [ItemsFinite, ih]

theorem entriesFinite_iff {entries : Mapping Value} :
    EntriesFinite entries ↔ ∀ entry ∈ entries, entry.2.AllFinite := by
  induction entries with
  | nil => simp [EntriesFinite]
  | cons entry rest ih => simp [EntriesFinite, ih]

theorem fromParts_allFinite : FromParts AllFinite where
  null := trivial
  bool _ := trivial
  int _ := trivial
  string _ := trivial
  array_iff := itemsFinite_iff
  object_iff := entriesFinite_iff

mutual

theorem allFinite_ofJson : (json : Json) → json.AllFinite → (ofJson json).AllFinite
  | .null, _ | .bool _, _ | .int _, _ | .string _, _ => trivial
  | .double _, finite => finite
  | .array items, finite => itemsFinite_ofItems items finite
  | .object entries, finite => entriesFinite_ofEntries entries finite

theorem itemsFinite_ofItems :
    (items : List Json) → Json.EveryItem Json.IsFinite items → ItemsFinite (ofItems items)
  | [], _ => trivial
  | item :: items, ⟨first, others⟩ => ⟨allFinite_ofJson item first, itemsFinite_ofItems items others⟩

theorem entriesFinite_ofEntries : (entries : List (String × Json)) →
    Json.EveryEntry Json.IsFinite entries → EntriesFinite (ofEntries entries)
  | [], _ => trivial
  | (_, value) :: entries, ⟨first, others⟩ =>
    ⟨allFinite_ofJson value first, entriesFinite_ofEntries entries others⟩

end

mutual

theorem AllFinite.toJson : (value : Value) → value.AllFinite →
    ∀ json, value.toJson? = some json → json.AllFinite
  | .null, _, json, form | .bool _, _, json, form | .int _, _, json, form | .string _, _, json, form
  | .collection [], _, json, form => by
    cases form
    trivial
  | .double _, finite, json, form => by
    cases form
    exact finite
  | .array items, finite, json, form => by
    obtain ⟨converted, success, rfl⟩ := Option.map_eq_some_iff.mp form
    exact ItemsFinite.toItems items finite converted success
  | .object entries, finite, json, form => by
    obtain ⟨converted, success, rfl⟩ := Option.map_eq_some_iff.mp form
    exact EntriesFinite.toEntries entries finite converted success
  | .collection (_ :: _), _, json, form | .member _ _, _, json, form => by cases form

theorem ItemsFinite.toItems : (items : List Value) → ItemsFinite items →
    ∀ converted, toItems? items = some converted → Json.EveryItem Json.IsFinite converted
  | [], _, converted, success => by
    cases success
    trivial
  | item :: items, ⟨first, others⟩, converted, success => by
    simp only [toItems?, Option.bind_eq_bind, Option.bind_eq_some_iff] at success
    obtain ⟨json, form, rest, success, same⟩ := success
    cases same
    exact ⟨first.toJson item json form, others.toItems items rest success⟩

theorem EntriesFinite.toEntries : (entries : List (String × Value)) → EntriesFinite entries →
    ∀ converted, toEntries? entries = some converted → Json.EveryEntry Json.IsFinite converted
  | [], _, converted, success => by
    cases success
    trivial
  | (name, value) :: entries, ⟨first, others⟩, converted, success => by
    simp only [toEntries?, Option.bind_eq_bind, Option.bind_eq_some_iff] at success
    obtain ⟨json, form, rest, success, same⟩ := success
    cases same
    exact ⟨first.toJson value json form, others.toEntries entries rest success⟩

end

end Value

/-! ## Elements -/

mutual

/-- Whether no double that an element holds, here and below, is NaN or infinite. -/
def Element.AllFinite : Element → Prop
  | ⟨_, content, metadata, attributes⟩ =>
      (Json.object metadata).AllFinite ∧ (Json.object attributes).AllFinite ∧ content.AllFinite

def Content.AllFinite : Content → Prop
  | .absent => True
  | .children items => ElementsFinite items
  | .member key none => key.AllFinite
  | .member key (some value) => key.AllFinite ∧ value.AllFinite
  | .literal value => value.AllFinite

def ElementsFinite : List Element → Prop
  | [] => True
  | item :: items => item.AllFinite ∧ ElementsFinite items

end

theorem elementsFinite_iff {items : List Element} :
    ElementsFinite items ↔ ∀ item ∈ items, item.AllFinite := by
  induction items with
  | nil => simp [ElementsFinite]
  | cons item rest ih => simp [ElementsFinite, ih]

theorem Element.allFinite_iff {element : Element} :
    element.AllFinite ↔ (Json.object element.metadata).AllFinite ∧
      (Json.object element.attributes).AllFinite ∧ element.content.AllFinite := by
  cases element
  rfl

theorem allFinite_overwrite {base changes : Mapping Json} (first : (Json.object base).AllFinite)
    (second : (Json.object changes).AllFinite) :
    (Json.object (Mapping.overwrite base changes)).AllFinite :=
  Json.everyEntry_iff.mpr fun entry among => (Mapping.mem_overwrite among).elim
    (Json.everyEntry_iff.mp first entry) (Json.everyEntry_iff.mp second entry)

theorem passesOn_allFinite : PassesOn Element.AllFinite where
  children {element} finite child among := by
    have content := (Element.allFinite_iff.mp finite).2.2
    unfold Element.children at among
    split at among
    · rename_i items found
      rw [found] at content
      exact elementsFinite_iff.mp content child among
    · cases among
  value {element value} finite held := by
    have content := (Element.allFinite_iff.mp finite).2.2
    unfold Element.memberValue? at held
    split at held
    · rename_i key found
      rw [found, held] at content
      exact content.2
    · cases held
  resolveInheritance {base derived} first second := by
    obtain ⟨baseMetadata, baseAttributes, baseContent⟩ := Element.allFinite_iff.mp first
    obtain ⟨metadata, attributes, content⟩ := Element.allFinite_iff.mp second
    refine Element.allFinite_iff.mpr ⟨allFinite_overwrite baseMetadata metadata,
      allFinite_overwrite baseAttributes attributes, ?_⟩
    rcases Element.content_resolveInheritance_cases base derived with
      ⟨left, right, fromBase, fromDerived, joined⟩ | replaced | ⟨-, kept⟩
    · rw [fromBase] at baseContent
      rw [fromDerived] at content
      rw [joined]
      exact elementsFinite_iff.mpr fun child among => (mem_joinChildren among).elim
        (elementsFinite_iff.mp baseContent child) (elementsFinite_iff.mp content child)
    · exact replaced ▸ content
    · exact kept ▸ baseContent

/-- What rendering takes over from an element is finite with the element. -/
theorem Content.AllFinite.ofContent {content : Content} (finite : content.AllFinite) :
    (Value.ofContent content).AllFinite := by
  cases content with
  | literal value => exact Value.allFinite_ofJson value finite
  | absent => trivial
  | children items => trivial
  | member key value => trivial

theorem Element.AllFinite.description {element : Element} (finite : element.AllFinite) {text : Json}
    (described : element.description? = some text) : (Value.ofJson text).AllFinite := by
  have found : Mapping.get? element.metadata "description" = some text := by
    unfold Element.description? at described
    split at described
    · cases described
    · exact described
  exact Value.allFinite_ofJson text ((Element.allFinite_iff.mp finite).1.part (.of_get? found))

theorem Element.AllFinite.gives {visit : Visit} (finite : visit.element.AllFinite) :
    visit.Gives Value.AllFinite := by
  cases visit with
  | listed member => exact fun text described => Element.AllFinite.description finite described
  | rendered element =>
    have finite : element.AllFinite := finite
    have parts := Element.allFinite_iff.mp finite
    exact {
      description := fun text described => finite.description described
      default_ := fun value found => Value.allFinite_ofJson value (parts.2.1.part (.of_get? found))
      primitive := fun _ _ _ => parts.2.2.ofContent
      choices := fun _ choice among => (Element.allFinite_iff.mp
        (passesOn_allFinite.children finite choice among)).2.2.ofContent }

/-! ## Parsing -/

namespace Refract

mutual

theorem allFinite_unwrap : (json : Json) → json.AllFinite → (unwrap json).AllFinite
  | .null, _ | .bool _, _ | .int _, _ | .string _, _ => trivial
  | .double _, finite => finite
  | .array items, finite => allFinite_unwrapItems items finite
  | .object entries, finite => by
    rw [unwrap]
    split
    · exact allFinite_unwrapContent entries finite
    · exact allFinite_unwrapEntries entries finite

theorem allFinite_unwrapItems : (items : List Json) → Json.EveryItem Json.IsFinite items →
    Json.EveryItem Json.IsFinite (unwrapItems items)
  | [], _ => trivial
  | item :: items, ⟨first, others⟩ =>
    ⟨allFinite_unwrap item first, allFinite_unwrapItems items others⟩

theorem allFinite_unwrapEntries : (entries : List (String × Json)) →
    Json.EveryEntry Json.IsFinite entries → Json.EveryEntry Json.IsFinite (unwrapEntries entries)
  | [], _ => trivial
  | (_, value) :: entries, ⟨first, others⟩ =>
    ⟨allFinite_unwrap value first, allFinite_unwrapEntries entries others⟩

theorem allFinite_unwrapContent : (entries : List (String × Json)) →
    Json.EveryEntry Json.IsFinite entries → (unwrapContent entries).AllFinite
  | [], _ => trivial
  | (name, value) :: entries, ⟨first, others⟩ => by
    rw [unwrapContent]
    split
    · exact allFinite_unwrap value first
    · exact allFinite_unwrapContent entries others

end

theorem allFinite_entryOrNull {entries : Mapping Json} (finite : (Json.object entries).AllFinite)
    (name : String) : (entryOrNull entries name).AllFinite := by
  unfold entryOrNull
  cases found : Mapping.get? entries name with
  | none => trivial
  | some value => exact finite.part (.of_get? found)

theorem allFinite_annotations {otherwise : FormatError} {entries found : Mapping Json} {name : String}
    (finite : (Json.object entries).AllFinite)
    (success : annotations otherwise (Mapping.get? entries name) = .ok found) :
    (Json.object found).AllFinite := by
  unfold annotations at success
  split at success
  · cases success
    trivial
  · cases success
    trivial
  · rename_i annotations given
    cases success
    exact allFinite_unwrapEntries annotations (finite.part (.of_get? given))
  · cases success

theorem allFinite_normalizeFlags {attributes normalized : Mapping Json}
    (finite : (Json.object attributes).AllFinite)
    (success : normalizeFlags attributes = .ok normalized) : (Json.object normalized).AllFinite := by
  unfold normalizeFlags at success
  split at success
  · cases success
    exact finite
  · obtain ⟨flags, listed, success⟩ := bind_eq_ok_iff.mp success
    cases success
    obtain ⟨texts, rfl⟩ := flagList_strings listed
    refine Json.everyEntry_iff.mpr fun entry among => ?_
    rcases Mapping.mem_put among with rfl | old
    · refine Json.everyItem_iff.mpr fun item isText => ?_
      obtain ⟨text, -, rfl⟩ := List.mem_map.mp isText
      trivial
    · exact Json.everyEntry_iff.mp finite entry old

/-- Whether parsing makes finite elements of a node if it is finite. -/
def KeepsFinite (node : Json) : Prop :=
  node.AllFinite → ∀ element, parse node = .ok element → element.AllFinite

/-- The content of an element is finite if parsing keeps its parts finite. -/
theorem allFinite_of_parseContent {kind : Option Kind} {value : Json} {content : Content}
    (finite : value.AllFinite) (below : ∀ part, sizeOf part ≤ sizeOf value → KeepsFinite part)
    (success : parseContent kind value = .ok content) : content.AllFinite := by
  by_cases null : value = .null
  · subst null
    cases success
    trivial
  obtain rfl | rfl | plain := kind_cases kind
  · cases value with
    | object entries =>
      have parts name := below _ (Nat.le_of_lt (sizeOf_entryOrNull entries name))
        (allFinite_entryOrNull finite name)
      obtain ⟨key, held, keyed, valued, rfl⟩ := (parseContent_member entries).mp success
      obtain ⟨-, rfl⟩ | ⟨value, parsed, rfl⟩ := parseElementField_eq_ok_iff.mp valued
      · exact parts "key" key keyed
      · exact ⟨parts "key" key keyed, parts "value" value parsed⟩
    | null => exact absurd rfl null
    | _ => simp [parseContent] at success
  · obtain ⟨name, -, rfl⟩ := (parseContent_reference null).mp success
    trivial
  · by_cases literal : IsLiteral value
    · cases (parseContent_literal plain literal null).symm.trans success
      exact finite
    obtain ⟨items, rfl⟩ | ⟨entries, rfl, named⟩ := not_isLiteral_iff.mp literal
    · obtain ⟨children, parsed, rfl⟩ := (parseContent_array plain).mp success
      refine elementsFinite_iff.mpr fun child among => ?_
      obtain ⟨item, source, read⟩ := (exists_of_mapM_eq_ok parsed).2 child among
      have smaller : sizeOf item < sizeOf items := List.sizeOf_lt_of_mem source
      exact below item (by rw [Json.array.sizeOf_spec]; omega)
        (Json.everyItem_iff.mp finite item source) child read
    · obtain ⟨child, parsed, rfl⟩ := (parseContent_single plain named).mp success
      exact ⟨below _ (Nat.le_refl _) finite child parsed, trivial⟩

/-- Parsing a finite node makes a finite element. -/
theorem allFinite_of_parse (node : Json) : KeepsFinite node := by
  intro finite element success
  cases node with
  | object entries =>
    obtain ⟨headed, filled⟩ := parse_object.mp success
    obtain ⟨-, -, described, attributes, annotated, normal⟩ := header_eq_ok_iff.mp headed
    have smaller := sizeOf_entryOrNull entries "content"
    exact Element.allFinite_iff.mpr ⟨allFinite_annotations finite described,
      allFinite_normalizeFlags (allFinite_annotations finite annotated) normal,
      allFinite_of_parseContent (allFinite_entryOrNull finite "content")
        (fun part _ => allFinite_of_parse part) filled⟩
  | _ => simp [parse] at success
termination_by sizeOf node

end Refract

/-! ## Rendering -/

section Rendering

variable {types : SymbolTable} {steps depth : Nat} {element : Element}
  (declared : ∀ entry ∈ types, entry.2.AllFinite) (finite : element.AllFinite)

include declared finite

theorem throughout_gives_allFinite :
    Throughout types (Visit.Gives Value.AllFinite) (.rendered element) := fun _ visits =>
  have start : (Visit.rendered element).element.AllFinite := finite
  Element.AllFinite.gives (passesOn_allFinite.visits declared start visits)

theorem allFinite_schema {schema : Schema}
    (success : renderSchemaWithin steps types depth element = .ok schema) :
    (Value.object schema).AllFinite :=
  Value.fromParts_allFinite.holds_schema (throughout_gives_allFinite declared finite) success

theorem allFinite_example {example_ : Value}
    (success : renderExampleWithin steps types depth element = .ok example_) :
    example_.AllFinite :=
  (Value.fromParts_allFinite.holds_example steps depth).1 element example_
    (throughout_gives_allFinite declared finite) success

end Rendering

end Mson
