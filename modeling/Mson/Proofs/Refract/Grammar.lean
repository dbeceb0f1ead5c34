import Mathlib.Data.List.Forall2
import Mson.Proofs.Refract.Shape

/-!
# The refract grammar

`IsNode` says which JSON values are refract nodes and `IsContent` which are the content of an element of
a kind. They look at an object only through the values that it has under certain names, where a missing
value is as good as null. Parsing accepts these values and no others, and the element that it makes of a
node has the layout of the node, here and at every node below (`parse_accepts_iff`).

The parser works through the entries of an object one by one. The first laws say what that comes to, name
by name. With them soundness (`parse_sound`) is an induction on the size of the node, since what stands
under a name is smaller than the object, and completeness (`IsNode.parses`) one over the grammar.
-/
namespace Mson.Refract

/-- The value under a name, or null. -/
def entryOrNull (entries : Mapping Json) (name : String) : Json :=
  (Mapping.get? entries name).getD .null

/-! ## The grammar -/

/-- Annotations may be missing or null. -/
def IsAnnotations (value : Json) : Prop := value = .null ∨ ∃ entries, value = .object entries

/-- Flags are a string or a list. -/
def IsFlags (value : Json) : Prop := (∃ flag, value = .string flag) ∨ ∃ items, value = .array items

/-- What an object needs beside its content to be a node with the given name. -/
structure IsHeader (entries : Mapping Json) (name : String) : Prop where
  named : entryOrNull entries "element" = .string name
  nonempty : name ≠ ""
  metadata : IsAnnotations (entryOrNull entries "meta")
  attributes : IsAnnotations (entryOrNull entries "attributes")
  flags : ∀ annotations value, entryOrNull entries "attributes" = .object annotations →
    Mapping.get? annotations flagsAttribute = some value → IsFlags (unwrap value)

/-- Whether the content of a kind has no form of its own, as that of members and references has. -/
def IsPlain (kind : Option Kind) : Prop := kind ≠ some .member ∧ kind ≠ some .reference

/-- Whether a value is neither a list nor an object with an element name. -/
def IsLiteral (value : Json) : Prop :=
  (∀ items, value ≠ .array items) ∧ value.field? "element" = none

mutual

/-- The JSON values that are refract nodes. -/
inductive IsNode : Json → Prop
  | node {entries : Mapping Json} {name : String} (header : IsHeader entries name)
      (content : IsContent (Kind.ofName? name) (entryOrNull entries "content")) :
      IsNode (.object entries)

/-- The JSON values that are content of an element of a kind. -/
inductive IsContent : Option Kind → Json → Prop
  | null {kind : Option Kind} : IsContent kind .null
  | member {entries : Mapping Json} (key : IsNode (entryOrNull entries "key"))
      (value : entryOrNull entries "value" ≠ .null → IsNode (entryOrNull entries "value")) :
      IsContent (some .member) (.object entries)
  | name {name : String} : IsContent (some .reference) (.string name)
  | link {entries : Mapping Json} {name : String} (href : entryOrNull entries "href" = .string name) :
      IsContent (some .reference) (.object entries)
  | items {kind : Option Kind} {items : List Json} (plain : IsPlain kind)
      (each : ∀ item ∈ items, IsNode item) : IsContent kind (.array items)
  | single {kind : Option Kind} {entries : Mapping Json} (plain : IsPlain kind)
      (only : IsNode (.object entries)) : IsContent kind (.object entries)
  | literal {kind : Option Kind} {value : Json} (plain : IsPlain kind) (isLiteral : IsLiteral value) :
      IsContent kind value

end

mutual

/-- Whether an element has the layout of a node: its name, flags that are a list of strings, and content
laid out as that of the node. -/
inductive ReadAs : Json → Element → Prop
  | node {entries : Mapping Json} {element : Element}
      (named : entryOrNull entries "element" = .string element.name)
      (flags : ∀ value, Mapping.get? element.attributes flagsAttribute = some value →
        ∃ flags : List String, value = .array (flags.map Json.string))
      (content : ContentReadAs element.kind (entryOrNull entries "content") element.content) :
      ReadAs (.object entries) element

/-- Whether content has the layout of a value: of a list there are as many children, in its order. -/
inductive ContentReadAs : Option Kind → Json → Content → Prop
  | absent {kind : Option Kind} : ContentReadAs kind .null .absent
  | key {entries : Mapping Json} {key : Element} (ofKey : ReadAs (entryOrNull entries "key") key)
      (noValue : entryOrNull entries "value" = .null) :
      ContentReadAs (some .member) (.object entries) (.member key none)
  | keyValue {entries : Mapping Json} {key value : Element}
      (ofKey : ReadAs (entryOrNull entries "key") key)
      (ofValue : ReadAs (entryOrNull entries "value") value) :
      ContentReadAs (some .member) (.object entries) (.member key (some value))
  | name {name : String} : ContentReadAs (some .reference) (.string name) (.literal (.string name))
  | link {entries : Mapping Json} {name : String} (href : entryOrNull entries "href" = .string name) :
      ContentReadAs (some .reference) (.object entries) (.literal (.string name))
  | items {kind : Option Kind} {items : List Json} {children : List Element} (plain : IsPlain kind)
      (each : List.Forall₂ ReadAs items children) :
      ContentReadAs kind (.array items) (.children children)
  | single {kind : Option Kind} {entries : Mapping Json} {child : Element} (plain : IsPlain kind)
      (only : ReadAs (.object entries) child) :
      ContentReadAs kind (.object entries) (.children [child])
  | literal {kind : Option Kind} {value : Json} (plain : IsPlain kind) (isLiteral : IsLiteral value)
      (present : value ≠ .null) : ContentReadAs kind value (.literal value)

end

/-! ## Entries by name -/

theorem entryOrNull_cons (other name : String) (value : Json) (rest : Mapping Json) :
    entryOrNull ((other, value) :: rest) name =
      if other = name then value else entryOrNull rest name := by
  unfold entryOrNull
  rw [Mapping.get?_cons]
  split <;> rfl

theorem entryOrNull_eq_iff {entries : Mapping Json} {name : String} {value : Json}
    (present : value ≠ .null) :
    entryOrNull entries name = value ↔ Mapping.get? entries name = some value := by
  unfold entryOrNull
  cases Mapping.get? entries name with
  | none => simp [present.symm]
  | some found => simp

theorem sizeOf_entryOrNull (entries : Mapping Json) (name : String) :
    sizeOf (entryOrNull entries name) < sizeOf (Json.object entries) := by
  induction entries with
  | nil => simp [entryOrNull]
  | cons entry rest ih =>
    obtain ⟨other, value⟩ := entry
    rw [entryOrNull_cons]
    simp only [Json.object.sizeOf_spec, List.cons.sizeOf_spec, Prod.mk.sizeOf_spec] at ih ⊢
    split <;> omega

/-! ## Headers -/

theorem annotations_get? (otherwise : FormatError) (entries : Mapping Json) (name : String) :
    annotations otherwise (Mapping.get? entries name) =
      annotations otherwise (some (entryOrNull entries name)) := by
  unfold entryOrNull
  cases Mapping.get? entries name <;> rfl

theorem exists_annotations_iff {otherwise : FormatError} {value : Json} :
    (∃ found, annotations otherwise (some value) = .ok found) ↔ IsAnnotations value := by
  cases value <;> simp [annotations, IsAnnotations]

theorem exists_flagList_iff {value : Json} : (∃ flags, flagList value = .ok flags) ↔ IsFlags value := by
  cases value <;> simp [flagList, IsFlags]

theorem exists_normalizeFlags_iff {attributes : Mapping Json} :
    (∃ normalized, normalizeFlags attributes = .ok normalized) ↔
      ∀ value, Mapping.get? attributes flagsAttribute = some value → IsFlags value := by
  unfold normalizeFlags
  cases Mapping.get? attributes flagsAttribute with
  | none => simp
  | some value =>
    simp only [Option.some.injEq, forall_eq']
    rw [exists_bind_eq_ok_iff, ← exists_flagList_iff]
    simp [pure, Except.pure]

/-- Flags are checked after unwrapping. -/
theorem exists_attributes_iff {otherwise : FormatError} {value : Json} :
    (∃ attributes, annotations otherwise (some value) = .ok attributes ∧
        ∃ normalized, normalizeFlags attributes = .ok normalized) ↔
      IsAnnotations value ∧ ∀ annotations flags, value = .object annotations →
        Mapping.get? annotations flagsAttribute = some flags → IsFlags (unwrap flags) := by
  simp only [exists_normalizeFlags_iff]
  cases value with
  | object entries =>
    simp only [annotations, IsAnnotations, Except.ok.injEq, exists_eq_left', unwrapEntries_eq,
      Mapping.get?_mapValues, Option.map_eq_some_iff, forall_exists_index, and_imp, Json.object.injEq]
    refine ⟨fun flags => ⟨.inr ⟨entries, rfl⟩, ?_⟩, fun ⟨_, flags⟩ => ?_⟩
    · rintro annotations value rfl flagged
      exact flags _ value flagged rfl
    · rintro _ value flagged rfl
      exact flags entries value rfl flagged
  | _ => simp [annotations, IsAnnotations]

theorem exists_header_iff {entries : Mapping Json} {name : String} :
    (∃ found, header entries = .ok found ∧ found.name = name) ↔ IsHeader entries name := by
  constructor
  · rintro ⟨found, success, rfl⟩
    obtain ⟨named, nonempty, described, attributes, annotated, normal⟩ := header_eq_ok_iff.mp success
    rw [annotations_get?] at described annotated
    obtain ⟨attributed, flags⟩ := exists_attributes_iff.mp ⟨attributes, annotated, _, normal⟩
    exact ⟨(entryOrNull_eq_iff (by simp)).mpr named, nonempty,
      exists_annotations_iff.mp ⟨_, described⟩, attributed, flags⟩
  · rintro ⟨named, nonempty, described, attributed, flags⟩
    obtain ⟨metadata, described⟩ := exists_annotations_iff.mpr described
    obtain ⟨attributes, annotated, normalized, normal⟩ := exists_attributes_iff.mpr ⟨attributed, flags⟩
    rw [← annotations_get?] at described annotated
    refine ⟨⟨name, metadata, normalized⟩, header_eq_ok_iff.mpr ?_, rfl⟩
    exact ⟨(entryOrNull_eq_iff (by simp)).mp named, nonempty, described, attributes, annotated, normal⟩

theorem normalizeFlags_strings {attributes normalized : Mapping Json}
    (success : normalizeFlags attributes = .ok normalized) {value : Json}
    (found : Mapping.get? normalized flagsAttribute = some value) :
    ∃ flags : List String, value = .array (flags.map Json.string) := by
  unfold normalizeFlags at success
  split at success
  · rename_i absent
    cases success
    rw [absent] at found
    cases found
  · obtain ⟨flags, listed, success⟩ := bind_eq_ok_iff.mp success
    cases success
    rw [Mapping.get?_put_self] at found
    cases found
    obtain ⟨texts, rfl⟩ := flagList_strings listed
    exact ⟨texts, rfl⟩

/-! ## The parser by name -/

theorem parse_null : parse .null = .error (.notAnObject .null) := by
  simp [parse, Json.shape]

theorem parseContentField_eq (kind : Option Kind) (entries : Mapping Json) :
    parseContentField kind entries = parseContent kind (entryOrNull entries "content") := by
  induction entries with
  | nil => rfl
  | cons entry rest ih =>
    obtain ⟨name, value⟩ := entry
    rw [parseContentField, entryOrNull_cons, ih]
    split <;> rfl

theorem parseElementField_eq_ok_iff {wanted : String} {entries : Mapping Json}
    {found : Option Element} :
    parseElementField wanted entries = .ok found ↔
      (entryOrNull entries wanted = .null ∧ found = none) ∨
        ∃ element, parse (entryOrNull entries wanted) = .ok element ∧ found = some element := by
  induction entries with
  | nil => simp [parseElementField, entryOrNull, parse_null, eq_comm]
  | cons entry rest ih =>
    obtain ⟨name, value⟩ := entry
    rw [parseElementField, entryOrNull_cons]
    by_cases here : name = wanted
    · rw [if_pos here, if_pos here]
      cases value with
      | null => simp [Json.isNull, parse_null, eq_comm]
      | _ =>
        rw [if_neg (by simp [Json.isNull]), map_eq_ok_iff]
        simp [eq_comm]
    · rw [if_neg here, if_neg here]
      exact ih

theorem parseItems_eq (items : List Json) : parseItems items = items.mapM parse := by
  induction items with
  | nil => rfl
  | cons item rest ih => rw [parseItems, ih, List.mapM_cons]

/-! ## Content -/

theorem parseContent_member (entries : Mapping Json) {content : Content} :
    parseContent (some .member) (.object entries) = .ok content ↔
      ∃ key value, parse (entryOrNull entries "key") = .ok key ∧
        parseElementField "value" entries = .ok value ∧ content = .member key value := by
  rw [parseContent, if_pos rfl]
  constructor
  · intro success
    obtain ⟨key, keyed, success⟩ := bind_eq_ok_iff.mp success
    cases key with
    | none => cases success
    | some key =>
      obtain ⟨value, valued, success⟩ := bind_eq_ok_iff.mp success
      obtain ⟨_, ⟨⟩⟩ | ⟨_, read, ⟨⟩⟩ := parseElementField_eq_ok_iff.mp keyed
      cases success
      exact ⟨key, value, read, valued, rfl⟩
  · rintro ⟨key, value, read, valued, rfl⟩
    refine bind_eq_ok_iff.mpr ⟨some key, parseElementField_eq_ok_iff.mpr (.inr ⟨key, read, rfl⟩), ?_⟩
    exact bind_eq_ok_iff.mpr ⟨value, valued, rfl⟩

theorem referenceTarget_eq_ok_iff {value : Json} {name : String} :
    referenceTarget value = .ok name ↔
      value = .string name ∨
        ∃ entries, value = .object entries ∧ entryOrNull entries "href" = .string name := by
  cases value with
  | object entries =>
    simp only [referenceTarget, reduceCtorEq, false_or, Json.object.injEq, exists_eq_left',
      entryOrNull_eq_iff (show Json.string name ≠ .null by simp)]
    split
    · rename_i target linked
      simp [linked]
    · rename_i unlinked
      exact iff_of_false (by simp) (unlinked name)
  | _ => simp [referenceTarget]

theorem parseContent_reference {value : Json} (present : value ≠ .null) {content : Content} :
    parseContent (some .reference) value = .ok content ↔
      ∃ name, referenceTarget value = .ok name ∧ content = .literal (.string name) := by
  have targeted : parseContent (some .reference) value =
      (do return .literal (.string (← referenceTarget value))) := by
    cases value <;> simp [parseContent, referenceTarget] at present ⊢
  rw [targeted, map_eq_ok_iff]
  simp [eq_comm]

theorem parseContent_array {kind : Option Kind} (plain : IsPlain kind) {items : List Json}
    {content : Content} :
    parseContent kind (.array items) = .ok content ↔
      ∃ children, items.mapM parse = .ok children ∧ content = .children children := by
  rw [parseContent, if_neg plain.1, if_neg plain.2, map_eq_ok_iff, parseItems_eq]
  simp [eq_comm]

theorem parseContent_single {kind : Option Kind} (plain : IsPlain kind) {entries : Mapping Json}
    (named : Mapping.has entries "element") {content : Content} :
    parseContent kind (.object entries) = .ok content ↔
      ∃ child, parse (.object entries) = .ok child ∧ content = .children [child] := by
  rw [parseContent, if_neg plain.1, if_neg plain.2, if_pos named, map_eq_ok_iff, parse]
  simp [eq_comm]

theorem parseContent_literal {kind : Option Kind} (plain : IsPlain kind) {value : Json}
    (literal : IsLiteral value) (present : value ≠ .null) :
    parseContent kind value = .ok (.literal value) := by
  cases value with
  | null => exact absurd rfl present
  | array items => exact absurd rfl (literal.1 items)
  | object entries =>
    have unnamed : ¬ Mapping.has entries "element" := by
      rw [Mapping.has, show Mapping.get? entries "element" = none from literal.2]
      simp
    rw [parseContent, if_neg plain.1, if_neg plain.2, if_neg unnamed]
  | _ => simp [parseContent, plain.1, plain.2]

/-! ## Soundness and completeness -/

theorem parse_object {entries : Mapping Json} {element : Element} :
    parse (.object entries) = .ok element ↔
      header entries = .ok ⟨element.name, element.metadata, element.attributes⟩ ∧
      parseContent element.kind (entryOrNull entries "content") = .ok element.content := by
  rw [parse, assemble_eq_ok_iff, parseContentField_eq]

theorem kind_cases (kind : Option Kind) :
    kind = some .member ∨ kind = some .reference ∨ IsPlain kind := by
  by_cases isMember : kind = some .member
  · exact .inl isMember
  · exact .inr ((em (kind = some .reference)).imp_right fun noReference => ⟨isMember, noReference⟩)

theorem not_isLiteral_iff {value : Json} :
    ¬ IsLiteral value ↔ (∃ items, value = .array items) ∨
      ∃ entries, value = .object entries ∧ Mapping.has entries "element" := by
  cases value <;> simp [IsLiteral, Json.field?, Json.entries?, Mapping.has, Option.isSome_iff_ne_none]

/-- What parses is a node, and the element has its layout. -/
def Sound (value : Json) : Prop :=
  ∀ element, parse value = .ok element → IsNode value ∧ ReadAs value element

theorem member_sound {entries : Mapping Json} {content : Content}
    (ofKey : Sound (entryOrNull entries "key")) (ofValue : Sound (entryOrNull entries "value"))
    (success : parseContent (some .member) (.object entries) = .ok content) :
    IsContent (some .member) (.object entries) ∧
      ContentReadAs (some .member) (.object entries) content := by
  obtain ⟨key, held, keyed, valued, rfl⟩ := (parseContent_member entries).mp success
  obtain ⟨isKey, readKey⟩ := ofKey key keyed
  obtain ⟨noValue, rfl⟩ | ⟨value, parsed, rfl⟩ := parseElementField_eq_ok_iff.mp valued
  · exact ⟨.member isKey fun present => absurd noValue present, .key readKey noValue⟩
  · obtain ⟨isValue, readValue⟩ := ofValue value parsed
    exact ⟨.member isKey fun _ => isValue, .keyValue readKey readValue⟩

theorem items_sound {kind : Option Kind} {items : List Json} {content : Content} (plain : IsPlain kind)
    (each : ∀ item ∈ items, Sound item) (success : parseContent kind (.array items) = .ok content) :
    IsContent kind (.array items) ∧ ContentReadAs kind (.array items) content := by
  obtain ⟨children, parsed, rfl⟩ := (parseContent_array plain).mp success
  have pairs := (List.forall₂_and_left items children).mpr ⟨each, mapM_eq_ok_iff_forall₂.mp parsed⟩
  constructor
  · refine .items plain fun item member => ?_
    obtain ⟨child, _, read⟩ := (exists_of_mapM_eq_ok parsed).1 item member
    exact (each item member child read).1
  · exact .items plain (pairs.imp fun item child ⟨sound, read⟩ => (sound child read).2)

/-- A single child that stands without a list is the content itself, so the parts are bounded by its size
and not below it. -/
theorem content_sound {kind : Option Kind} {value : Json} {content : Content}
    (below : ∀ part, sizeOf part ≤ sizeOf value → Sound part)
    (success : parseContent kind value = .ok content) :
    IsContent kind value ∧ ContentReadAs kind value content := by
  by_cases null : value = .null
  · subst null
    cases success
    exact ⟨.null, .absent⟩
  obtain rfl | rfl | plain := kind_cases kind
  · cases value with
    | object entries =>
      have parts name := below _ (Nat.le_of_lt (sizeOf_entryOrNull entries name))
      exact member_sound (parts "key") (parts "value") success
    | null => exact absurd rfl null
    | _ => simp [parseContent] at success
  · obtain ⟨name, targeted, rfl⟩ := (parseContent_reference null).mp success
    obtain rfl | ⟨entries, rfl, href⟩ := referenceTarget_eq_ok_iff.mp targeted
    · exact ⟨.name, .name⟩
    · exact ⟨.link href, .link href⟩
  · by_cases literal : IsLiteral value
    · cases (parseContent_literal plain literal null).symm.trans success
      exact ⟨.literal plain literal, .literal plain literal null⟩
    obtain ⟨items, rfl⟩ | ⟨entries, rfl, named⟩ := not_isLiteral_iff.mp literal
    · refine items_sound plain (fun item member => below item ?_) success
      have smaller : sizeOf item < sizeOf items := List.sizeOf_lt_of_mem member
      rw [Json.array.sizeOf_spec]
      omega
    · obtain ⟨child, parsed, rfl⟩ := (parseContent_single plain named).mp success
      obtain ⟨isChild, readChild⟩ := below _ (Nat.le_refl _) child parsed
      exact ⟨.single plain isChild, .single plain readChild⟩

theorem parse_sound (node : Json) : Sound node := by
  intro element success
  cases node with
  | object entries =>
    obtain ⟨headed, filled⟩ := parse_object.mp success
    have shape : IsHeader entries element.name := exists_header_iff.mp ⟨_, headed, rfl⟩
    obtain ⟨_, _, _, _, _, normal⟩ := header_eq_ok_iff.mp headed
    -- Whatever part of the content is parsed next is smaller than the object.
    have smaller := sizeOf_entryOrNull entries "content"
    obtain ⟨accepted, laidOut⟩ := content_sound (fun part _ => parse_sound part) filled
    exact ⟨.node shape accepted,
      .node shape.named (fun value found => normalizeFlags_strings normal found) laidOut⟩
  | _ => simp [parse] at success
termination_by sizeOf node

theorem IsNode.named {entries : Mapping Json} (isNode : IsNode (.object entries)) :
    Mapping.has entries "element" := by
  cases isNode with
  | node header =>
    rw [Mapping.has, (entryOrNull_eq_iff (by simp)).mp header.named]
    rfl

mutual

/-- Every node parses. -/
theorem IsNode.parses {node : Json} (isNode : IsNode node) : ∃ element, parse node = .ok element := by
  match isNode with
  | .node header content =>
    obtain ⟨body, filled⟩ := content.parses
    obtain ⟨found, headed, rfl⟩ := exists_header_iff.mpr header
    exact ⟨⟨found.name, body, found.metadata, found.attributes⟩, parse_object.mpr ⟨headed, filled⟩⟩
termination_by structural isNode

theorem IsContent.parses {kind : Option Kind} {value : Json} (isContent : IsContent kind value) :
    ∃ content, parseContent kind value = .ok content := by
  match isContent with
  | .null => exact ⟨.absent, rfl⟩
  | @IsContent.member entries isKey isValue =>
    obtain ⟨key, keyed⟩ := isKey.parses
    have valued : ∃ value, parseElementField "value" entries = .ok value := by
      by_cases noValue : entryOrNull entries "value" = .null
      · exact ⟨none, parseElementField_eq_ok_iff.mpr (.inl ⟨noValue, rfl⟩)⟩
      · obtain ⟨value, parsed⟩ := (isValue noValue).parses
        exact ⟨some value, parseElementField_eq_ok_iff.mpr (.inr ⟨value, parsed, rfl⟩)⟩
    obtain ⟨value, valued⟩ := valued
    exact ⟨.member key value, (parseContent_member entries).mpr ⟨key, value, keyed, valued, rfl⟩⟩
  | @IsContent.name name =>
    have targeted := referenceTarget_eq_ok_iff.mpr (.inl (Eq.refl (Json.string name)))
    exact ⟨_, (parseContent_reference (by simp)).mpr ⟨name, targeted, rfl⟩⟩
  | @IsContent.link entries name href =>
    have targeted := referenceTarget_eq_ok_iff.mpr (.inr ⟨entries, rfl, href⟩)
    exact ⟨_, (parseContent_reference (by simp)).mpr ⟨name, targeted, rfl⟩⟩
  | .items plain each =>
    obtain ⟨children, parsed⟩ := exists_mapM_eq_ok fun item member => (each item member).parses
    exact ⟨_, (parseContent_array plain).mpr ⟨children, parsed, rfl⟩⟩
  | @IsContent.single _ entries plain only =>
    obtain ⟨child, parsed⟩ := only.parses
    exact ⟨_, (parseContent_single plain only.named).mpr ⟨child, parsed, rfl⟩⟩
  | @IsContent.literal _ value plain isLiteral =>
    by_cases null : value = .null
    · exact null ▸ ⟨.absent, rfl⟩
    · exact ⟨_, parseContent_literal plain isLiteral null⟩
termination_by structural isContent

end

/-- Parsing accepts the refract nodes and nothing else. The element has the layout of the node, and if
the node is well-formed JSON then content goes with its kind throughout the element. Any other value is
a format error. -/
theorem parse_accepts_iff (node : Json) :
    ((∃ element, parse node = .ok element) ↔ IsNode node) ∧
    (∀ element, parse node = .ok element →
      ReadAs node element ∧ (node.WellFormed → element.WellShaped)) ∧
    (¬ IsNode node → ∃ fault : FormatError, parse node = .error fault) := by
  have accepts : (∃ element, parse node = .ok element) ↔ IsNode node :=
    ⟨fun ⟨element, success⟩ => (parse_sound node element success).1, IsNode.parses⟩
  refine ⟨accepts, fun element success => ?_, fun noNode => ?_⟩
  · exact ⟨(parse_sound node element success).2,
      fun wellFormed => parse_wellShaped node wellFormed element success⟩
  · cases parsed : parse node with
    | ok element => exact absurd (accepts.mp ⟨element, parsed⟩) noNode
    | error fault => exact ⟨fault, rfl⟩

namespace WrappedFlags

/-- Flags in a wrapper, a value whose only child stands without a list, and a linked reference. -/
def node : Json :=
  .object [("element", .string "object"),
    ("attributes", .object [("typeAttributes", .object [("element", .string "array"),
      ("content", .array [.object [("element", .string "string"), ("content", .string "required")]])])]),
    ("content", .array [
      .object [("element", .string "member"), ("content", .object [
        ("key", .object [("element", .string "string"), ("content", .string "names")]),
        ("value", .object [("element", .string "array"),
          ("content", .object [("element", .string "string")])])])],
      .object [("element", .string "ref"), ("content", .object [("href", .string "Named")])]])]

/-- The same node with the flags under a name that no wrapper has. -/
def unreadable : Json :=
  .object [("element", .string "object"),
    ("attributes", .object [("typeAttributes", .object [("flags", .array [.string "required"])])])]

theorem parse_accepts_wrapped :
    IsNode node ∧ (∃ element, parse node = .ok element ∧ ReadAs node element ∧ element.WellShaped) ∧
      ¬ IsNode unreadable ∧ parse unreadable = .error .flagsNotAList := by
  obtain ⟨accepts, shows, _⟩ := parse_accepts_iff node
  obtain ⟨element, success⟩ : ∃ element, parse node = .ok element := ⟨_, rfl⟩
  obtain ⟨laidOut, shaped⟩ := shows element success
  have refused : parse unreadable = .error .flagsNotAList := rfl
  refine ⟨accepts.mp ⟨element, success⟩, ⟨element, success, laidOut, shaped (by decide)⟩, ?_, refused⟩
  intro isNode
  obtain ⟨element, success⟩ := (parse_accepts_iff unreadable).1.mpr isNode
  cases refused.symm.trans success

end WrappedFlags

end Mson.Refract
