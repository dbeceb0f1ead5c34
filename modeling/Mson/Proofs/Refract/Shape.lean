import Mson.Proofs.Computation
import Mson.Proofs.Json.WellFormed
import Mson.Refract.Parser
import Mson.Element.Flags

/-!
# The shape of parsed elements

An `Element` may hold any content; parsing builds only those whose content goes with their kind.
`Element.WellShaped` says this for an element with its whole subtree: a member holds a key and a
value or nothing, a reference its target or nothing, every other element children, a value or
nothing, and flags are a list of strings. The passes that follow rely on it.

JSON is taken to be well formed, as its reader builds it (`Json.WellFormed`).
-/
namespace Mson

/-- Flags, if there are any, are a list of strings, and no attribute stands twice. -/
def FlagsListed (attributes : Mapping Json) : Prop :=
  Mapping.NamesDistinct attributes ∧
    ∀ value, Mapping.get? attributes flagsAttribute = some value →
      ∃ flags : List String, value = .array (flags.map Json.string)

mutual

/-- Whether content goes with the kind of its element, here and at every element below. -/
def Element.WellShaped : Element → Prop
  | ⟨name, content, _, attributes⟩ =>
      FlagsListed attributes ∧ content.WellShapedFor (Kind.ofName? name)

def Content.WellShapedFor (kind : Option Kind) : Content → Prop
  | .absent => True
  | .children items => kind ≠ some .member ∧ kind ≠ some .reference ∧ AllWellShaped items
  | .member key none => kind = some .member ∧ key.WellShaped
  | .member key (some value) => kind = some .member ∧ key.WellShaped ∧ value.WellShaped
  | .literal value =>
      kind ≠ some .member ∧ value.isNull = false ∧
        (kind = some .reference → ∃ name, value = .string name)

def AllWellShaped : List Element → Prop
  | [] => True
  | item :: items => item.WellShaped ∧ AllWellShaped items

end

theorem allWellShaped_iff {items : List Element} :
    AllWellShaped items ↔ ∀ item ∈ items, item.WellShaped := by
  induction items with
  | nil => simp [AllWellShaped]
  | cons item rest ih => simp [AllWellShaped, ih]

namespace Element

theorem WellShaped.flagsListed {element : Element} (shaped : element.WellShaped) :
    FlagsListed element.attributes := by
  cases element
  exact shaped.1

theorem WellShaped.content {element : Element} (shaped : element.WellShaped) :
    element.content.WellShapedFor element.kind := by
  cases element
  exact shaped.2

theorem WellShaped.children {element child : Element} (shaped : element.WellShaped)
    (member : child ∈ element.children) : child.WellShaped := by
  have content := shaped.content
  unfold Element.children at member
  split at member
  · rename_i items found
    rw [found] at content
    exact allWellShaped_iff.mp content.2.2 child member
  · cases member

/-- Members and references have no children. -/
theorem WellShaped.childless {element : Element} (shaped : element.WellShaped)
    (kind : element.kind = some .member ∨ element.kind = some .reference) :
    element.children = [] := by
  have content := shaped.content
  unfold Element.children
  split
  · rename_i items found
    rw [found] at content
    exact absurd kind (not_or.mpr ⟨content.1, content.2.1⟩)
  · rfl

theorem WellShaped.memberValue {element value : Element} (shaped : element.WellShaped)
    (found : element.memberValue? = some value) : value.WellShaped := by
  have content := shaped.content
  unfold Element.memberValue? at found
  split at found
  · rename_i key held
    rw [held, found] at content
    exact content.2.2
  · cases found

end Element

/-! ## Parsing -/

namespace Refract

theorem unwrapEntries_eq (entries : Mapping Json) :
    unwrapEntries entries = Mapping.mapValues unwrap entries := by
  induction entries with
  | nil => rfl
  | cons entry rest ih =>
    obtain ⟨name, value⟩ := entry
    rw [Mapping.mapValues_cons, ← ih]
    rfl

theorem annotations_distinct {otherwise : FormatError} {field : Option Json}
    {found : Mapping Json} (wellFormed : ∀ value, field = some value → value.WellFormed)
    (success : annotations otherwise field = .ok found) : Mapping.NamesDistinct found := by
  unfold annotations at success
  split at success
  · cases success
    exact List.nodup_nil
  · cases success
    exact List.nodup_nil
  · rename_i entries
    cases success
    unfold Mapping.NamesDistinct
    rw [unwrapEntries_eq, Mapping.names_mapValues]
    exact (wellFormed (.object entries) rfl).1
  · cases success

theorem flagList_strings {value : Json} {flags : List Json} (success : flagList value = .ok flags) :
    ∃ texts : List String, flags = texts.map Json.string := by
  unfold flagList at success
  split at success
  · rename_i flag
    cases success
    exact ⟨[flag], rfl⟩
  · rename_i items
    cases success
    refine ⟨items.filterMap fun item => Element.nameText? (.literal item), ?_⟩
    rw [List.map_filterMap]
  · cases success

theorem normalizeFlags_listed {attributes normalized : Mapping Json}
    (distinct : Mapping.NamesDistinct attributes)
    (success : normalizeFlags attributes = .ok normalized) : FlagsListed normalized := by
  unfold normalizeFlags at success
  split at success
  · rename_i absent
    cases success
    exact ⟨distinct, fun value found => by rw [absent] at found; cases found⟩
  · rename_i value present
    obtain ⟨flags, listed, success⟩ := bind_eq_ok_iff.mp success
    cases success
    refine ⟨distinct.put _ _, fun value found => ?_⟩
    rw [Mapping.get?_put_self] at found
    cases found
    obtain ⟨texts, rfl⟩ := flagList_strings listed
    exact ⟨texts, rfl⟩

theorem header_eq_ok_iff {entries : Mapping Json} {found : Header} :
    header entries = .ok found ↔
      Mapping.get? entries "element" = some (.string found.name) ∧ found.name ≠ "" ∧
      annotations .metadataNotAnObject (Mapping.get? entries "meta") = .ok found.metadata ∧
      ∃ attributes,
        annotations .attributesNotAnObject (Mapping.get? entries "attributes") = .ok attributes ∧
        normalizeFlags attributes = .ok found.attributes := by
  unfold header
  constructor
  · intro success
    split at success
    · rename_i name named
      split at success
      · cases success
      · rename_i nonempty
        simp only [pure_bind] at success
        obtain ⟨metadata, described, success⟩ := bind_eq_ok_iff.mp success
        obtain ⟨attributes, annotated, success⟩ := bind_eq_ok_iff.mp success
        obtain ⟨normalized, normal, success⟩ := bind_eq_ok_iff.mp success
        cases success
        exact ⟨named, nonempty, described, attributes, annotated, normal⟩
    · cases success
  · rintro ⟨named, nonempty, described, attributes, annotated, normal⟩
    rw [named, described, annotated]
    simp only [if_neg nonempty]
    show (normalizeFlags attributes >>= _) = _
    rw [normal]
    rfl

theorem header_listed {entries : Mapping Json} {found : Header}
    (wellFormed : Json.EntriesWellFormed entries) (success : header entries = .ok found) :
    FlagsListed found.attributes := by
  obtain ⟨_, _, _, attributes, annotated, normal⟩ := header_eq_ok_iff.mp success
  exact normalizeFlags_listed
    (annotations_distinct (fun _ field => Json.wellFormed_of_get? wellFormed field) annotated) normal

theorem header_metadata_distinct {entries : Mapping Json} {found : Header}
    (wellFormed : Json.EntriesWellFormed entries) (success : header entries = .ok found) :
    Mapping.NamesDistinct found.metadata := by
  obtain ⟨_, _, annotated, _⟩ := header_eq_ok_iff.mp success
  exact annotations_distinct (fun _ field => Json.wellFormed_of_get? wellFormed field) annotated

theorem assemble_eq_ok_iff {entries : Mapping Json}
    {content : Option Kind → Except FormatError Content} {element : Element} :
    assemble entries content = .ok element ↔
      header entries = .ok ⟨element.name, element.metadata, element.attributes⟩ ∧
      content element.kind = .ok element.content := by
  unfold assemble
  constructor
  · intro success
    obtain ⟨found, headed, success⟩ := bind_eq_ok_iff.mp success
    obtain ⟨body, filled, success⟩ := bind_eq_ok_iff.mp success
    cases success
    exact ⟨headed, filled⟩
  · rintro ⟨headed, filled⟩
    cases element
    exact bind_eq_ok_iff.mpr ⟨_, headed, bind_eq_ok_iff.mpr ⟨_, filled, rfl⟩⟩

/-- An assembled element is well shaped if its content is. -/
theorem assemble_wellShaped {entries : Mapping Json}
    {content : Option Kind → Except FormatError Content} {element : Element}
    (wellFormed : Json.EntriesWellFormed entries)
    (shaped : ∀ kind found, content kind = .ok found → found.WellShapedFor kind)
    (success : assemble entries content = .ok element) : element.WellShaped := by
  obtain ⟨headed, filled⟩ := assemble_eq_ok_iff.mp success
  cases element
  exact ⟨header_listed wellFormed headed, shaped _ _ filled⟩

/-- Content that is neither an object nor a list nor null. -/
theorem scalarContent_wellShaped {kind : Option Kind} {value : Json} {content : Content}
    (scalar : value.isNull = false)
    (success : (if kind = some .member then .error .memberNotAnObject
      else if kind = some .reference then do
        return .literal (.string (← referenceTarget value))
      else .ok (.literal value)) = Except.ok content) : content.WellShapedFor kind := by
  split at success
  · cases success
  · rename_i noMember
    split at success
    · obtain ⟨target, _, success⟩ := bind_eq_ok_iff.mp success
      cases success
      exact ⟨noMember, rfl, fun _ => ⟨target, rfl⟩⟩
    · rename_i noReference
      cases success
      exact ⟨noMember, scalar, fun isReference => absurd isReference noReference⟩

mutual

theorem parse_wellShaped :
    ∀ node : Json, node.WellFormed → ∀ element, parse node = .ok element → element.WellShaped
  | .object entries, wellFormed, element, success => by
    rw [parse] at success
    exact assemble_wellShaped wellFormed.2
      (fun kind found => parseContentField_wellShaped kind entries wellFormed.2 found) success
  | .null, _, _, success => by simp [parse] at success
  | .bool _, _, _, success => by simp [parse] at success
  | .int _, _, _, success => by simp [parse] at success
  | .double _, _, _, success => by simp [parse] at success
  | .string _, _, _, success => by simp [parse] at success
  | .array _, _, _, success => by simp [parse] at success

theorem parseItems_wellShaped :
    ∀ items : List Json, Json.ItemsWellFormed items →
      ∀ elements, parseItems items = .ok elements → AllWellShaped elements
  | [], _, elements, success => by
    cases success
    trivial
  | item :: items, wellFormed, elements, success => by
    rw [parseItems] at success
    obtain ⟨first, parsed, success⟩ := bind_eq_ok_iff.mp success
    obtain ⟨rest, others, success⟩ := bind_eq_ok_iff.mp success
    cases success
    exact ⟨parse_wellShaped item wellFormed.1 first parsed,
      parseItems_wellShaped items wellFormed.2 rest others⟩

theorem parseContent_wellShaped :
    ∀ (kind : Option Kind) (value : Json), value.WellFormed →
      ∀ content, parseContent kind value = .ok content → content.WellShapedFor kind
  | _, .null, _, content, success => by
    cases success
    trivial
  | kind, .object entries, wellFormed, content, success => by
    rw [parseContent] at success
    split at success
    · rename_i isMember
      obtain ⟨key, keyed, success⟩ := bind_eq_ok_iff.mp success
      split at success
      · cases success
      · rename_i key
        obtain ⟨value, valued, success⟩ := bind_eq_ok_iff.mp success
        cases success
        have keyShaped := parseElementField_wellShaped "key" entries wellFormed.2 _ keyed key rfl
        cases value with
        | none => exact ⟨isMember, keyShaped⟩
        | some value =>
          exact ⟨isMember, keyShaped,
            parseElementField_wellShaped "value" entries wellFormed.2 _ valued value rfl⟩
    · rename_i noMember
      split at success
      · obtain ⟨target, _, success⟩ := bind_eq_ok_iff.mp success
        cases success
        exact ⟨noMember, rfl, fun _ => ⟨target, rfl⟩⟩
      · rename_i noReference
        split at success
        · obtain ⟨child, assembled, success⟩ := bind_eq_ok_iff.mp success
          cases success
          have shaped := assemble_wellShaped wellFormed.2
            (fun kind found => parseContentField_wellShaped kind entries wellFormed.2 found)
            assembled
          exact ⟨noMember, noReference, shaped, trivial⟩
        · cases success
          exact ⟨noMember, rfl, fun isReference => absurd isReference noReference⟩
  | kind, .array items, wellFormed, content, success => by
    rw [parseContent] at success
    split at success
    · cases success
    · rename_i noMember
      split at success
      · cases success
      · rename_i noReference
        obtain ⟨elements, parsed, success⟩ := bind_eq_ok_iff.mp success
        cases success
        exact ⟨noMember, noReference, parseItems_wellShaped items wellFormed elements parsed⟩
  | kind, .bool value, _, content, success => scalarContent_wellShaped rfl success
  | kind, .int value, _, content, success => scalarContent_wellShaped rfl success
  | kind, .double value, _, content, success => scalarContent_wellShaped rfl success
  | kind, .string value, _, content, success => scalarContent_wellShaped rfl success

theorem parseContentField_wellShaped :
    ∀ (kind : Option Kind) (entries : List (String × Json)), Json.EntriesWellFormed entries →
      ∀ content, parseContentField kind entries = .ok content → content.WellShapedFor kind
  | _, [], _, content, success => by
    cases success
    trivial
  | kind, (name, value) :: entries, wellFormed, content, success => by
    rw [parseContentField] at success
    split at success
    · exact parseContent_wellShaped kind value wellFormed.1 content success
    · exact parseContentField_wellShaped kind entries wellFormed.2 content success

theorem parseElementField_wellShaped :
    ∀ (wanted : String) (entries : List (String × Json)), Json.EntriesWellFormed entries →
      ∀ found, parseElementField wanted entries = .ok found →
        ∀ element, found = some element → element.WellShaped
  | _, [], _, found, success, element, present => by
    cases success
    cases present
  | wanted, (name, value) :: entries, wellFormed, found, success, element, present => by
    rw [parseElementField] at success
    split at success
    · split at success
      · cases success
        cases present
      · obtain ⟨parsed, read, result⟩ := bind_eq_ok_iff.mp success
        cases result
        cases present
        exact parse_wellShaped value wellFormed.1 element read
    · exact parseElementField_wellShaped wanted entries wellFormed.2 found success element present

end

end Refract

/-- An element that parsing makes of JSON. -/
def Element.Parsed (element : Element) : Prop :=
  ∃ node : Json, node.WellFormed ∧ Refract.parse node = .ok element

/-- No annotation of an element stands twice. -/
structure Element.AnnotationsDistinct (element : Element) : Prop where
  metadata : Mapping.NamesDistinct element.metadata
  attributes : Mapping.NamesDistinct element.attributes

theorem Element.Parsed.annotationsDistinct {element : Element} (parsed : element.Parsed) :
    element.AnnotationsDistinct := by
  obtain ⟨node, wellFormed, success⟩ := parsed
  cases node with
  | object entries =>
    rw [Refract.parse] at success
    obtain ⟨headed, _⟩ := Refract.assemble_eq_ok_iff.mp success
    exact ⟨Refract.header_metadata_distinct wellFormed.2 headed,
      (Refract.header_listed wellFormed.2 headed).1⟩
  | _ => simp [Refract.parse] at success

/-- A symbol table of parsed elements. -/
def SymbolTable.Parsed (types : SymbolTable) : Prop := ∀ entry ∈ types, entry.2.Parsed

theorem Element.Parsed.wellShaped {element : Element} (parsed : element.Parsed) :
    element.WellShaped := by
  obtain ⟨node, wellFormed, success⟩ := parsed
  exact Refract.parse_wellShaped node wellFormed element success

theorem SymbolTable.Parsed.wellShaped {types : SymbolTable} (parsed : types.Parsed) {name : String}
    {element : Element} (found : Mapping.get? types name = some element) : element.WellShaped :=
  (parsed _ (Mapping.mem_of_get? found)).wellShaped

end Mson
