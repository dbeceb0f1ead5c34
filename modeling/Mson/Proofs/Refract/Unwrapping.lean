import Mathlib.Logic.Relation
import Mson.Proofs.Json.Part
import Mson.Proofs.Refract.Grammar

/-!
# Values without wrappers

Unwrapping puts the content of a wrapper in its place, and that content may again be a wrapper or hold
some; any other object keeps its names, so it does not become one. By induction on the size of the value
no wrapper is left at any depth (`unwrapped_unwrap`), and where there is none nothing changes
(`unwrap_of_unwrapped`).

The elements inside a parsed element are parsed from parts of its node (`exists_part_of_inside`), so what
parsing unwraps in one header holds of the annotations of them all.
-/
namespace Mson

/-- The elements right below an element. -/
inductive Element.Holds : Element → Element → Prop
  | child {element child : Element} (among : child ∈ element.children) : Holds element child
  | key {element key : Element} {value : Option Element}
      (member : element.content = .member key value) : Holds element key
  | value {element value : Element} (held : element.memberValue? = some value) : Holds element value

/-- The elements at any depth, the element itself included. -/
abbrev Element.Inside : Element → Element → Prop := Relation.ReflTransGen Element.Holds

namespace Refract

/-- Whether a value is a wrapper: an object with an element name and with nothing that an element has
not. -/
def IsWrapped (value : Json) : Prop :=
  ∃ entries, value = .object entries ∧ "element" ∈ Mapping.names entries ∧
    ∀ name ∈ Mapping.names entries,
      name = "element" ∨ name = "content" ∨ name = "meta" ∨ name = "attributes"

/-- Whether no part of a value is a wrapper. -/
def Unwrapped (value : Json) : Prop := ∀ part, part.IsPart value → ¬ IsWrapped part

theorem isWrapped_iff {entries : Mapping Json} :
    IsWrapped (.object entries) ↔ isWrapper entries = true := by
  simp only [IsWrapped, Json.object.injEq, exists_eq_left', isWrapper, Bool.and_eq_true,
    Mapping.has_iff, List.all_eq_true, List.contains_iff_mem, elementFields, List.mem_cons,
    List.not_mem_nil, or_false]

/-! ## Unwrapping by name -/

theorem unwrapItems_eq (items : List Json) : unwrapItems items = items.map unwrap := by
  induction items with
  | nil => rfl
  | cons item rest ih => rw [unwrapItems, ih, List.map_cons]

theorem unwrapContent_eq (entries : Mapping Json) :
    unwrapContent entries = unwrap (entryOrNull entries "content") := by
  induction entries with
  | nil => rfl
  | cons entry rest ih =>
    obtain ⟨name, value⟩ := entry
    rw [unwrapContent, entryOrNull_cons, ih]
    split <;> rfl

theorem unwrap_object (entries : Mapping Json) :
    unwrap (.object entries) =
      if isWrapper entries then unwrapContent entries else .object (unwrapEntries entries) := rfl

/-- The content stands in the place of its wrapper. -/
theorem unwrap_of_isWrapped {entries : Mapping Json} (wrapped : IsWrapped (.object entries)) :
    unwrap (.object entries) = unwrap (entryOrNull entries "content") := by
  rw [unwrap_object, if_pos (isWrapped_iff.mp wrapped), unwrapContent_eq]

theorem unwrap_of_not_isWrapped {entries : Mapping Json} (other : ¬ IsWrapped (.object entries)) :
    unwrap (.object entries) = .object (Mapping.mapValues unwrap entries) := by
  rw [unwrap_object, if_neg fun wrapper => other (isWrapped_iff.mpr wrapper), unwrapEntries_eq]

theorem unwrap_array (items : List Json) : unwrap (.array items) = .array (items.map unwrap) := by
  rw [← unwrapItems_eq]
  rfl

/-! ## No wrapper is left -/

theorem unwrapped_array_iff {items : List Json} :
    Unwrapped (.array items) ↔ ∀ item ∈ items, Unwrapped item := by
  constructor
  · exact fun clean item among part isPart => clean part (.item among isPart)
  · intro clean part isPart
    cases isPart with
    | self =>
      rintro ⟨entries, impossible, -⟩
      cases impossible
    | item among inside => exact clean _ among part inside

theorem unwrapped_object_iff {entries : Mapping Json} :
    Unwrapped (.object entries) ↔
      ¬ IsWrapped (.object entries) ∧ ∀ entry ∈ entries, Unwrapped entry.2 := by
  constructor
  · exact fun clean =>
      ⟨clean _ (.self _), fun entry among part isPart => clean part (.entry among isPart)⟩
  · rintro ⟨other, clean⟩ part isPart
    cases isPart with
    | self => exact other
    | entry among inside => exact clean _ among part inside

theorem unwrapped_of_scalar {value : Json} (noItems : ∀ items, value ≠ .array items)
    (noEntries : ∀ entries, value ≠ .object entries) : Unwrapped value := by
  intro part isPart
  cases isPart with
  | self =>
    rintro ⟨entries, isObject, -⟩
    exact noEntries entries isObject
  | item _ _ => exact absurd rfl (noItems _)
  | entry _ _ => exact absurd rfl (noEntries _)

theorem isWrapped_mapValues_iff {entries : Mapping Json} :
    IsWrapped (.object (Mapping.mapValues unwrap entries)) ↔ IsWrapped (.object entries) := by
  simp only [IsWrapped, Json.object.injEq, exists_eq_left', Mapping.names_mapValues]

theorem sizeOf_entry {entries : Mapping Json} {entry : String × Json} (among : entry ∈ entries) :
    sizeOf entry.2 < sizeOf (Json.object entries) := by
  have smaller := List.sizeOf_lt_of_mem among
  obtain ⟨name, value⟩ := entry
  rw [Prod.mk.sizeOf_spec] at smaller
  show sizeOf value < sizeOf (Json.object entries)
  rw [Json.object.sizeOf_spec]
  omega

theorem unwrapped_unwrap : (value : Json) → Unwrapped (unwrap value)
  | .array items => by
    rw [unwrap_array, unwrapped_array_iff]
    intro item among
    obtain ⟨original, source, rfl⟩ := List.mem_map.mp among
    exact unwrapped_unwrap original
  | .object entries => by
    by_cases wrapped : IsWrapped (.object entries)
    · rw [unwrap_of_isWrapped wrapped]
      have smaller := sizeOf_entryOrNull entries "content"
      exact unwrapped_unwrap (entryOrNull entries "content")
    · rw [unwrap_of_not_isWrapped wrapped, unwrapped_object_iff, isWrapped_mapValues_iff]
      refine ⟨wrapped, fun entry among => ?_⟩
      obtain ⟨original, source, rfl⟩ := List.mem_map.mp among
      have smaller := sizeOf_entry source
      exact unwrapped_unwrap original.2
  | .null | .bool _ | .int _ | .double _ | .string _ =>
    unwrapped_of_scalar (by simp [unwrap]) (by simp [unwrap])
termination_by value => sizeOf value
decreasing_by all_goals first | assumption | decreasing_tactic

theorem unwrap_of_unwrapped : (value : Json) → Unwrapped value → unwrap value = value
  | .array items, clean => by
    have each : ∀ item ∈ items, unwrap item = item := fun item among =>
      unwrap_of_unwrapped item (unwrapped_array_iff.mp clean item among)
    rw [unwrap_array, List.map_congr_left each, List.map_id']
  | .object entries, clean => by
    obtain ⟨other, below⟩ := unwrapped_object_iff.mp clean
    have each : ∀ entry ∈ entries, (entry.1, unwrap entry.2) = entry := fun entry among => by
      have smaller := sizeOf_entry among
      rw [unwrap_of_unwrapped entry.2 (below entry among)]
    rw [unwrap_of_not_isWrapped other, Mapping.mapValues, List.map_congr_left each, List.map_id']
  | .null, _ | .bool _, _ | .int _, _ | .double _, _ | .string _, _ => rfl
termination_by value => sizeOf value
decreasing_by all_goals first | assumption | decreasing_tactic

/-! ## Annotations of parsed elements -/

/-- Whether no annotation of an element holds a wrapper. -/
def AnnotationsUnwrapped (element : Element) : Prop :=
  ∀ entry ∈ element.metadata ++ element.attributes, Unwrapped entry.2

theorem unwrapped_annotations {otherwise : FormatError} {field : Option Json} {found : Mapping Json}
    (success : annotations otherwise field = .ok found) : ∀ entry ∈ found, Unwrapped entry.2 := by
  unfold annotations at success
  split at success
  · cases success
    simp
  · cases success
    simp
  · cases success
    intro entry among
    rw [unwrapEntries_eq] at among
    obtain ⟨original, -, rfl⟩ := List.mem_map.mp among
    exact unwrapped_unwrap original.2
  · cases success

theorem unwrapped_normalizeFlags {attributes normalized : Mapping Json}
    (clean : ∀ entry ∈ attributes, Unwrapped entry.2)
    (success : normalizeFlags attributes = .ok normalized) :
    ∀ entry ∈ normalized, Unwrapped entry.2 := by
  unfold normalizeFlags at success
  split at success
  · cases success
    exact clean
  · obtain ⟨flags, listed, success⟩ := bind_eq_ok_iff.mp success
    cases success
    obtain ⟨texts, rfl⟩ := flagList_strings listed
    intro entry among
    rcases Mapping.mem_put among with rfl | old
    · rw [unwrapped_array_iff]
      intro item isFlag
      obtain ⟨text, -, rfl⟩ := List.mem_map.mp isFlag
      exact unwrapped_of_scalar (by simp) (by simp)
    · exact clean entry old

theorem annotationsUnwrapped_of_parse {node : Json} {element : Element}
    (success : parse node = .ok element) : AnnotationsUnwrapped element := by
  cases node with
  | object entries =>
    obtain ⟨headed, -⟩ := parse_object.mp success
    obtain ⟨-, -, described, attributes, annotated, normal⟩ := header_eq_ok_iff.mp headed
    intro entry among
    rcases List.mem_append.mp among with inMetadata | inAttributes
    · exact unwrapped_annotations described entry inMetadata
    · exact unwrapped_normalizeFlags (unwrapped_annotations annotated) normal entry inAttributes
  | _ => simp [parse] at success

/-! ## Elements inside of parsed elements -/

theorem isPart_entryOrNull {entries : Mapping Json} {name : String}
    (present : entryOrNull entries name ≠ .null) :
    (entryOrNull entries name).IsPart (.object entries) :=
  .of_get? ((entryOrNull_eq_iff present).mp rfl)

theorem ne_null_of_parse {node : Json} {element : Element} (success : parse node = .ok element) :
    node ≠ .null := by
  rintro rfl
  rw [parse_null] at success
  cases success

/-- An element that is read under a name is parsed from a part of the object. -/
theorem exists_part_of_entry {entries : Mapping Json} {name : String} {element : Element}
    (success : parse (entryOrNull entries name) = .ok element) :
    ∃ part : Json, part.IsPart (.object entries) ∧ parse part = .ok element :=
  ⟨_, isPart_entryOrNull (ne_null_of_parse success), success⟩

theorem exists_part_of_content {kind : Option Kind} {value : Json} {content : Content}
    (success : parseContent kind value = .ok content) :
    (∀ items, content = .children items → ∀ child ∈ items,
      ∃ part : Json, part.IsPart value ∧ parse part = .ok child) ∧
    ∀ key held, content = .member key held →
      (∃ part : Json, part.IsPart value ∧ parse part = .ok key) ∧
        ∀ element, held = some element →
          ∃ part : Json, part.IsPart value ∧ parse part = .ok element := by
  by_cases null : value = .null
  · subst null
    cases success
    simp
  obtain rfl | rfl | plain := kind_cases kind
  · cases value with
    | object entries =>
      obtain ⟨key, held, keyed, valued, rfl⟩ := (parseContent_member entries).mp success
      refine ⟨by simp, ?_⟩
      rintro _ _ ⟨⟩
      refine ⟨exists_part_of_entry keyed, ?_⟩
      rintro element rfl
      obtain ⟨_, ⟨⟩⟩ | ⟨_, parsed, ⟨⟩⟩ := parseElementField_eq_ok_iff.mp valued
      exact exists_part_of_entry parsed
    | null => exact absurd rfl null
    | _ => simp [parseContent] at success
  · obtain ⟨name, -, rfl⟩ := (parseContent_reference null).mp success
    simp
  · by_cases literal : IsLiteral value
    · cases (parseContent_literal plain literal null).symm.trans success
      simp
    obtain ⟨items, rfl⟩ | ⟨entries, rfl, named⟩ := not_isLiteral_iff.mp literal
    · obtain ⟨children, parsed, rfl⟩ := (parseContent_array plain).mp success
      refine ⟨?_, by simp⟩
      rintro _ ⟨⟩ child among
      obtain ⟨item, source, read⟩ := (exists_of_mapM_eq_ok parsed).2 child among
      exact ⟨item, .item source (.self item), read⟩
    · obtain ⟨only, parsed, rfl⟩ := (parseContent_single plain named).mp success
      refine ⟨?_, by simp⟩
      rintro _ ⟨⟩ child among
      rw [List.mem_singleton.mp among]
      exact ⟨_, .self _, parsed⟩

/-- An element right below a parsed one is parsed from a part of its node. -/
theorem exists_part_of_holds {node : Json} {element inner : Element}
    (success : parse node = .ok element) (holds : element.Holds inner) :
    ∃ part : Json, part.IsPart node ∧ parse part = .ok inner := by
  cases node with
  | object entries =>
    obtain ⟨-, filled⟩ := parse_object.mp success
    obtain ⟨ofChildren, ofMember⟩ := exists_part_of_content filled
    have inContent : ∃ part : Json,
        part.IsPart (entryOrNull entries "content") ∧ parse part = .ok inner := by
      cases holds with
      | child among =>
        unfold Element.children at among
        split at among
        · rename_i items found
          exact ofChildren items found inner among
        · cases among
      | key member => exact (ofMember _ _ member).1
      | value held =>
        unfold Element.memberValue? at held
        split at held
        · rename_i key found
          exact (ofMember _ _ found).2 inner held
        · cases held
    obtain ⟨part, isPart, parsed⟩ := inContent
    by_cases present : entryOrNull entries "content" = .null
    · rw [present] at isPart
      cases isPart
      exact absurd rfl (ne_null_of_parse parsed)
    · exact ⟨part, isPart.trans (isPart_entryOrNull present), parsed⟩
  | _ => simp [parse] at success

theorem exists_part_of_inside {node : Json} {element inner : Element}
    (success : parse node = .ok element) (inside : element.Inside inner) :
    ∃ part : Json, part.IsPart node ∧ parse part = .ok inner := by
  induction inside with
  | refl => exact ⟨node, .self node, success⟩
  | tail _ holds ih =>
    obtain ⟨middle, isPart, parsed⟩ := ih
    obtain ⟨part, inner, read⟩ := exists_part_of_holds parsed holds
    exact ⟨part, inner.trans isPart, read⟩

/-- Unwrapping leaves no wrapper at any depth and changes nothing but values that hold one, so that
unwrapping again changes nothing. What stands in a wrapper comes to stand in its place. In a parsed
element no annotation holds a wrapper, neither its own nor that of an element inside. -/
theorem unwrapping_complete (value : Json) :
    Unwrapped (unwrap value) ∧ (unwrap value = value ↔ Unwrapped value) ∧
      unwrap (unwrap value) = unwrap value ∧
      (∀ entries, value = .object entries → IsWrapped value →
        unwrap value = unwrap (entryOrNull entries "content")) ∧
      ∀ element inner, parse value = .ok element → element.Inside inner →
        AnnotationsUnwrapped inner := by
  refine ⟨unwrapped_unwrap value, ⟨fun same => ?_, unwrap_of_unwrapped value⟩,
    unwrap_of_unwrapped _ (unwrapped_unwrap value), ?_, fun element inner success inside => ?_⟩
  · rw [← same]
    exact unwrapped_unwrap value
  · rintro entries rfl wrapped
    exact unwrap_of_isWrapped wrapped
  · obtain ⟨part, -, parsed⟩ := exists_part_of_inside success inside
    exact annotationsUnwrapped_of_parse parsed

namespace NestedWrappers

def wrap (content : Json) : Json :=
  .object [("element", .string "string"), ("content", content)]

/-- The names keep this object from being a wrapper, although its element name stands in one. -/
def default_ : Json := .object [("element", wrap (.string "a")), ("size", wrap (wrap (.int 1)))]

def childNode : Json :=
  .object [("element", .string "number"), ("attributes", .object [("default", default_)])]

/-- A node is a wrapper, too. -/
def node : Json := .object [("element", .string "array"), ("content", .array [childNode])]

def child : Element :=
  ⟨"number", .absent, [], [("default", .object [("element", .string "a"), ("size", .int 1)])]⟩

theorem unwrapping_complete_nested :
    IsWrapped node ∧ unwrap node = .array [.null] ∧ Unwrapped (unwrap node) ∧
      ∃ element, parse node = .ok element ∧ element.Inside child ∧ AnnotationsUnwrapped child := by
  have wrapped : IsWrapped node := isWrapped_iff.mpr rfl
  obtain ⟨clean, -, -, replaced, annotated⟩ := unwrapping_complete node
  have parsed : parse node = .ok ⟨"array", .children [child], [], []⟩ := rfl
  have inside : Element.Inside ⟨"array", .children [child], [], []⟩ child :=
    .single (.child (List.mem_singleton_self child))
  exact ⟨wrapped, replaced _ rfl wrapped, clean, _, parsed, inside, annotated _ _ parsed inside⟩

end NestedWrappers

end Refract

end Mson
