import Mson.Proofs.Rendering.Mixin
import Mson.Proofs.Run.Isolation
import Mson.Run.NamedType

/-!
# Asking for a declared type

A declared type is rendered when it is asked for by its name, and when a payload has it for its data
structure: by the bare name, or through a reference. All of them agree (`named_type_agrees`). They are
kept from rendering by the same types, since the element of the payload mentions the name only and so
reaches what the declaration reaches and the name itself. And they render the same, since the element
brings nothing with it that it could lay over the declaration.
-/
namespace Mson

variable {types : SymbolTable} {name : String}

/-! ## Data structures that are one type -/

/-- A reference that is nothing but its target. -/
def Element.bareReference (name : String) : Element := ⟨"ref", .literal (.string name), [], []⟩

theorem Element.kind_bareReference (name : String) :
    (bareReference name).kind = some .reference := rfl

theorem Element.target?_bareReference (name : String) :
    (bareReference name).target? = some name := rfl

/-- The nodes that are nothing but a declared type, each with its element. -/
inductive AsksFor (name : String) : Mapping Json → Element → Prop
  | bare : AsksFor name [("element", .string name)] (.bare name)
  | reference :
      AsksFor name [("element", .string "ref"), ("content", .string name)] (.bareReference name)

section AsksFor

variable {node : Mapping Json} {element declaration : Element} (asks : AsksFor name node element)

include asks

theorem AsksFor.parse (notEmpty : name ≠ "") : Refract.parse (.object node) = .ok element := by
  cases asks with
  | bare =>
    have head : Refract.header [("element", .string name)] = .ok ⟨name, [], []⟩ := by
      have given : Mapping.get? [("element", Json.string name)] "element" = some (.string name) := rfl
      simp only [Refract.header, given, if_neg notEmpty]
      rfl
    rw [Refract.parse, Refract.assemble, head]
    rfl
  | reference => rfl

theorem AsksFor.mentions (named : Kind.ofName? name = none)
    (declared : Mapping.get? types name = some declaration) : element.mentions types = [name] := by
  have there : Mapping.has types name = true := Mapping.has_iff.mpr (Mapping.mem_names_of_get? declared)
  cases asks with
  | bare => simp only [Element.bare, Element.mentions, named, there, if_true, Content.childMentions]
  | reference =>
    rw [Element.mentions_of_reference (Element.kind_bareReference name)]
    simp only [Element.bareReference, Content.targetMention, there, if_true]

theorem AsksFor.renderSchemaWithin_succ (named : Kind.ofName? name = none)
    (declared : Mapping.get? types name = some declaration) (steps depth : Nat) :
    renderSchemaWithin steps types (depth + 1) element =
      renderSchemaWithin steps types depth declaration := by
  have contributed : Schema.ofKind steps types (renderSchemaWithin steps types depth) element =
      renderSchemaWithin steps types depth declaration := by
    cases asks with
    | bare =>
      have kind : (Element.bare name).kind = none := named
      have found : Mapping.get? types (Element.bare name).name = some declaration := declared
      simp only [Schema.ofKind, kind, found, resolveInheritance_bare]
    | reference =>
      simp only [Schema.ofKind, Element.kind_bareReference, Element.target?_bareReference,
        Option.bind_some, declared]
  rw [Mson.renderSchemaWithin_succ, contributed]
  cases renderSchemaWithin steps types depth declaration with
  | error fault => rfl
  | ok schema => cases asks <;> rfl

theorem AsksFor.renderExampleWithin_succ (named : Kind.ofName? name = none)
    (declared : Mapping.get? types name = some declaration) (steps depth : Nat) :
    renderExampleWithin steps types (depth + 1) element =
      renderExampleWithin steps types depth declaration := by
  cases asks with
  | bare =>
    have kind : (Element.bare name).kind = none := named
    have found : Mapping.get? types (Element.bare name).name = some declaration := declared
    rw [renderExampleWithin]
    simp only [kind, found, resolveInheritance_bare]
  | reference =>
    rw [renderExampleWithin]
    simp only [Element.kind_bareReference, Element.target?_bareReference, Option.bind_some, declared]

/-- Both ways, the same types keep the declared type from being rendered. -/
theorem AsksFor.blockingTypes_eq (named : Kind.ofName? name = none)
    (declared : Mapping.get? types name = some declaration) (distinct : Mapping.NamesDistinct types) :
    blockingTypes types name declaration =
      sortNames ((reachableNames types element).filter (cyclicNames types).contains) := by
  refine sortNames_eq_of_mem_iff ((nodup_cyclicNames distinct).filter _)
    ((nodup_reachableNames element).filter _) fun other => ?_
  have reached := @mem_reachableNames_of_single_iff types element declaration name other
    (asks.mentions named declared) declared
  rw [List.mem_filter, List.mem_filter, Bool.or_eq_true, decide_eq_true_iff, List.contains_iff_mem,
    List.contains_iff_mem, reached]
  exact and_comm

/-- The element of a payload that asks for a declared type. -/
theorem AsksFor.payloadElement_eq {payload : Payload} {rendering : RenderingSettings}
    (notEmpty : name ≠ "") (named : Kind.ofName? name = none)
    (declared : Mapping.get? types name = some declaration) (distinct : Mapping.NamesDistinct types)
    (given : payload.dataStructure = some node) (skips : rendering.skipCyclicTypes = true) :
    payloadElement types (cyclicNames types) rendering payload =
      if (blockingTypes types name declaration).isEmpty then .ok (some element)
      else .error (.selfReferencing (blockingTypes types name declaration)) := by
  rw [asks.blockingTypes_eq named declared distinct, isEmpty_sortNames]
  simp only [payloadElement, given, asks.parse notEmpty, skips, if_true]

end AsksFor

/-! ## The type by its name -/

section Named

variable {steps depth : Nat} {settings : Settings} {declaration : Element}
  (declared : Mapping.get? types name = some declaration)
  (skips : settings.rendering.skipCyclicTypes = true)

include declared skips

theorem renderNamedTypeWithin_of_blocked
    (blocked : (blockingTypes types name declaration).isEmpty = false) :
    renderNamedTypeWithin steps depth types name settings =
      .error (.selfReferencing (blockingTypes types name declaration)) := by
  simp only [renderNamedTypeWithin, declared, skips, blocked, if_true]
  rfl

/-- Where nothing blocks it, a type is rendered as its schema and its example are. -/
theorem renderNamedTypeWithin_eq_ok_iff {found : NamedType}
    (unblocked : (blockingTypes types name declaration).isEmpty = true) :
    renderNamedTypeWithin steps depth types name settings = .ok found ↔
      ∃ schema example_, renderSchemaWithin steps types depth declaration = .ok schema ∧
        renderExampleWithin steps types depth declaration = .ok example_ ∧
        found = ⟨name, withDialect settings.output.schemaUri schema, example_⟩ := by
  simp only [renderNamedTypeWithin, declared, skips, unblocked, if_true, bind_eq_ok_iff,
    mapError_eq_ok_iff, pure, Except.pure, Except.ok.injEq]
  constructor
  · rintro ⟨schema, shown, example_, shownToo, rfl⟩
    exact ⟨schema, example_, shown, shownToo, rfl⟩
  · rintro ⟨schema, example_, shown, shownToo, rfl⟩
    exact ⟨schema, shown, example_, shownToo, rfl⟩

/-- No rendering is self-referencing by itself. -/
theorem renderNamedTypeWithin_ne_of_unblocked {names : List String}
    (unblocked : (blockingTypes types name declaration).isEmpty = true) :
    renderNamedTypeWithin steps depth types name settings ≠ .error (.selfReferencing names) := by
  simp only [renderNamedTypeWithin, declared, skips, unblocked, if_true]
  cases renderSchemaWithin steps types depth declaration with
  | error fault => cases fault <;> nofun
  | ok schema =>
    cases renderExampleWithin steps types depth declaration with
    | error fault => cases fault <;> nofun
    | ok example_ => nofun

end Named

/-! ## Agreement -/

/-- How what a payload shows of its element compares with the declared type of the given name. -/
structure ShowsNamed (description : Description) (settings : Settings) (name : String)
    (payload : Payload) (element : Element) : Prop where
  /-- The element nests one level deeper than the declaration. -/
  level : ∀ steps depth found,
    renderNamedTypeWithin steps depth description.types name settings = .ok found ↔
      ∃ schema example_, renderSchemaWithin steps description.types (depth + 1) element = .ok schema ∧
        renderExampleWithin steps description.types (depth + 1) element = .ok example_ ∧
        found = ⟨name, withDialect settings.output.schemaUri schema, example_⟩
  /-- Where rendering ends, both have the same schema and the same example. -/
  same : ∀ found,
    (∃ steps depth, renderNamedTypeWithin steps depth description.types name settings = .ok found) ↔
      ∃ schema example_, ShowsSchema description.types element schema ∧
        ShowsExample description.types element example_ ∧
        found = ⟨name, withDialect settings.output.schemaUri schema, example_⟩
  /-- Limits that are wide enough for the element are wide enough for the type. -/
  ends : ∀ steps depth, Settled (renderSchemaWithin steps description.types (depth + 1) element) →
    Settled (renderExampleWithin steps description.types (depth + 1) element) →
    ∃ found, renderNamedTypeWithin steps depth description.types name settings = .ok found
  /-- The texts of the payload, where they are generated, are those of the type. -/
  texts : ∀ steps depth more deeper rendered found,
    description.render settings steps depth payload = .ok rendered → rendered.errors = [] →
    renderNamedTypeWithin more deeper description.types name settings = .ok found →
    ((payload.providedSchema.isSome && settings.rendering.keepProvidedSchemas) = false →
      Artifact.ofValue settings.output.indent (.object found.schema) = .ok rendered.schema) ∧
    (found.example_.isNull = false →
      Artifact.ofValue settings.output.indent found.example_ = .ok rendered.body)

section Agreement

variable {description : Description} {settings : Settings} {payload : Payload} {node : Mapping Json}
  {element : Element}

/-- What blocks a payload is recorded with it. -/
theorem selfReferencing_mem_errors_iff {steps depth : Nat} {rendered : RenderedPayload}
    {names : List String}
    (success : description.render settings steps depth payload = .ok rendered) :
    .selfReferencing names ∈ rendered.errors ↔
      description.element? settings payload = .error (.selfReferencing names) := by
  rw [mem_errors_iff success]
  constructor
  · intro failure
    cases failure with
    | blocked blocked => exact blocked
  · exact .blocked

section Unblocked

variable {declaration : Element} (asks : AsksFor name node element)
  (named : Kind.ofName? name = none)
  (declared : Mapping.get? description.types name = some declaration)
  (skips : settings.rendering.skipCyclicTypes = true)
  (unblocked : (blockingTypes description.types name declaration).isEmpty = true)

include asks named declared skips unblocked

theorem AsksFor.renderNamedTypeWithin_eq_ok_iff {steps depth : Nat} {found : NamedType} :
    renderNamedTypeWithin steps depth description.types name settings = .ok found ↔
      ∃ schema example_, renderSchemaWithin steps description.types (depth + 1) element = .ok schema ∧
        renderExampleWithin steps description.types (depth + 1) element = .ok example_ ∧
        found = ⟨name, withDialect settings.output.schemaUri schema, example_⟩ := by
  rw [Mson.renderNamedTypeWithin_eq_ok_iff declared skips unblocked,
    asks.renderSchemaWithin_succ named declared, asks.renderExampleWithin_succ named declared]

theorem AsksFor.exists_renderNamedTypeWithin_iff {found : NamedType} :
    (∃ steps depth, renderNamedTypeWithin steps depth description.types name settings = .ok found) ↔
      ∃ schema example_, ShowsSchema description.types element schema ∧
        ShowsExample description.types element example_ ∧
        found = ⟨name, withDialect settings.output.schemaUri schema, example_⟩ := by
  have level {steps depth : Nat} :=
    @renderNamedTypeWithin_eq_ok_iff name description settings node element declaration asks named
      declared skips unblocked steps depth found
  constructor
  · rintro ⟨steps, depth, success⟩
    obtain ⟨schema, example_, shown, shownToo, rfl⟩ := level.mp success
    exact ⟨schema, example_, ⟨steps, _, shown⟩, ⟨steps, _, shownToo⟩, rfl⟩
  · rintro ⟨schema, example_, ⟨steps, depth, shown⟩, ⟨more, deeper, shownToo⟩, rfl⟩
    refine ⟨max steps more, max depth deeper, level.mpr ⟨schema, example_, ?_, ?_, rfl⟩⟩
    · exact (grows_schema _ element).ok_mono shown (by omega) (by omega)
    · exact (grows_example _ element).ok_mono shownToo (by omega) (by omega)

theorem AsksFor.showsNamed (parsedTypes : description.types.Parsed)
    (schemas : settings.rendering.schemas = true) (examples : settings.rendering.examples = true)
    (given : description.element? settings payload = .ok (some element)) :
    ShowsNamed description settings name payload element where
  level _ _ _ := asks.renderNamedTypeWithin_eq_ok_iff named declared skips unblocked
  same _ := asks.exists_renderNamedTypeWithin_iff named declared skips unblocked
  ends steps depth schemaEnds exampleEnds := by
    have alike := asks.renderSchemaWithin_succ named declared steps depth
    obtain ⟨schema, shown⟩ := exists_schema_of_settled parsedTypes
      (parsedTypes _ (Mapping.mem_of_get? declared)) (alike ▸ schemaEnds)
    obtain ⟨example_, shownToo⟩ := exists_example_of_settled exampleEnds
    exact ⟨_, (asks.renderNamedTypeWithin_eq_ok_iff named declared skips unblocked).mpr
      ⟨schema, example_, alike.trans shown, shownToo, rfl⟩⟩
  texts steps depth more deeper rendered found success clean shown := by
    obtain ⟨schema, example_, shows_, showsToo, rfl⟩ :=
      (asks.exists_renderNamedTypeWithin_iff named declared skips unblocked).mp ⟨more, deeper, shown⟩
    obtain ⟨schemaText, bodyText⟩ := texts_of_renderPayloadWithin given success clean
    constructor
    · intro wanted
      have wants : wantsSchema settings.rendering payload = true := by
        rw [wantsSchema, schemas, wanted]
        rfl
      obtain ⟨other, rendersOther, text⟩ := schemaText wants
      rwa [shows_.unique ⟨steps, depth, rendersOther⟩]
    · intro present
      obtain ⟨other, rendersOther, text⟩ := bodyText examples
      rw [showsToo.unique ⟨steps, depth, rendersOther⟩] at present ⊢
      exact text present

end Unblocked

/-- A declared type that is asked for by its name and one that a payload asks for, by the name or
through a reference, are kept from rendering by the same types. Where none are, both show the same
schema and the same example. -/
theorem named_type_agrees (wellFormed : (Json.object description).WellFormed)
    (declared : name ∈ Mapping.names description.types) (named : Kind.ofName? name = none)
    (skips : settings.rendering.skipCyclicTypes = true) (schemas : settings.rendering.schemas = true)
    (examples : settings.rendering.examples = true) (asks : AsksFor name node element)
    (given : payload.dataStructure = some node) :
    (∀ steps depth names,
      (renderNamedTypeWithin steps depth description.types name settings =
          .error (.selfReferencing names) ↔
        description.element? settings payload = .error (.selfReferencing names)) ∧
      ∀ rendered, description.render settings steps depth payload = .ok rendered →
        (.selfReferencing names ∈ rendered.errors ↔
          description.element? settings payload = .error (.selfReferencing names))) ∧
    ((∀ names, description.element? settings payload ≠ .error (.selfReferencing names)) →
      description.element? settings payload = .ok (some element) ∧
        ShowsNamed description settings name payload element) := by
  obtain ⟨declaration, found⟩ := Mapping.exists_get?_iff.mpr declared
  have outcome : description.element? settings payload =
      if (blockingTypes description.types name declaration).isEmpty then .ok (some element)
      else .error (.selfReferencing (blockingTypes description.types name declaration)) :=
    asks.payloadElement_eq (ne_empty_of_mem_declarations declared) named found
      (declarations_distinct _) given skips
  refine ⟨fun steps depth names => ⟨?_, fun rendered => selfReferencing_mem_errors_iff⟩,
    fun notBlocked => ?_⟩
  · cases blocked : (blockingTypes description.types name declaration).isEmpty with
    | true =>
      refine iff_of_false (renderNamedTypeWithin_ne_of_unblocked found skips blocked) ?_
      simp [outcome, blocked]
    | false =>
      rw [renderNamedTypeWithin_of_blocked found skips blocked]
      simp [outcome, blocked]
  · cases blocked : (blockingTypes description.types name declaration).isEmpty with
    | true =>
      have isElement : description.element? settings payload = .ok (some element) := by
        rw [outcome, blocked]
        rfl
      exact ⟨isElement, asks.showsNamed named found skips blocked (declarations_parsed wellFormed)
        schemas examples isElement⟩
    | false =>
      rw [blocked] at outcome
      exact absurd outcome (notBlocked _)

end Agreement

namespace DeclaredName

/-! A description declares a name, which is a text, and a node, which has a next one. -/

def declares (definition : Mapping Json) : Json :=
  .object [("element", .string "dataStructure"), ("content", .array [.object definition])]

def text : Mapping Json := [("element", .string "string"), ("meta", .object [("id", .string "Name")])]

def node : Mapping Json :=
  [("element", .string "object"), ("meta", .object [("id", .string "Node")]),
    ("content", .array [.object [("element", .string "member"), ("content", .object
      [("key", .object [("element", .string "string"), ("content", .string "next")]),
        ("value", .object [("element", .string "Node")])])]])]

/-- The description, with one response that has the given data structure. -/
def description (asked : Mapping Json) : Description :=
  ("content", .array [declares text, declares node]) :: SingleResponse.describe asked

def bareNode : Mapping Json := [("element", .string "Node")]

def nameReference : Mapping Json := [("element", .string "ref"), ("content", .string "Name")]

def textElement : Element := ⟨"string", .absent, [("id", .string "Name")], []⟩

def nodeElement : Element :=
  ⟨"object", .children [⟨"member", .member ⟨"string", .literal (.string "next"), [], []⟩
    (some (.bare "Node")), [], []⟩], [("id", .string "Node")], []⟩

/-- The types that it declares. -/
def table : SymbolTable := [("Name", textElement), ("Node", nodeElement)]

theorem node_blocked : (blockingTypes table "Node" nodeElement).isEmpty = false := by
  have mentioned : "Node" ∈ successors table "Node" := by decide
  have cyclic : "Node" ∈ cyclicNames table := mem_cyclicNames_of_path (.seed mentioned (by decide))
  have blocking : "Node" ∈ blockingTypes table "Node" nodeElement :=
    mem_sortNames.mpr (List.mem_filter.mpr ⟨cyclic, by simp⟩)
  exact List.isEmpty_eq_false_iff_exists_mem.mpr ⟨_, blocking⟩

theorem name_unblocked : (blockingTypes table "Name" textElement).isEmpty = true := by
  have reachesNothing : reachableNames table textElement = [] := reachFrom_nil []
  have acyclic : "Name" ∉ cyclicNames table := by
    intro cyclic
    obtain ⟨element, declared, reached⟩ := mem_cyclicNames_iff.mp cyclic
    have isText : element = textElement := by simpa [table] using declared
    rw [isText, reachesNothing] at reached
    cases reached
  rw [blockingTypes, isEmpty_sortNames, List.isEmpty_iff, List.filter_eq_nil_iff]
  intro cyclic among
  have other : cyclic ≠ "Name" := fun same => acyclic (same ▸ among)
  simp [reachesNothing, other]

/-- The node is kept from rendering either way, and the name is shown either way. -/
theorem named_type_agrees_name :
    (∃ names,
      renderNamedType (description bareNode).types "Node" {} = .error (.selfReferencing names) ∧
      (description bareNode).element? {} (SingleResponse.payload bareNode) =
        .error (.selfReferencing names)) ∧
    ShowsNamed (description nameReference) {} "Name" (SingleResponse.payload nameReference)
      (.bareReference "Name") := by
  have blocked : renderNamedType (description bareNode).types "Node" {} =
      .error (.selfReferencing (blockingTypes table "Node" nodeElement)) :=
    renderNamedTypeWithin_of_blocked rfl rfl node_blocked
  obtain ⟨nodeBlocked, -⟩ := @named_type_agrees "Node" (description bareNode) {}
    (SingleResponse.payload bareNode) bareNode _ (by decide) (by decide) (by decide) rfl rfl rfl .bare
    rfl
  obtain ⟨nameBlocked, shows_⟩ := @named_type_agrees "Name" (description nameReference) {}
    (SingleResponse.payload nameReference) nameReference _ (by decide) (by decide) (by decide) rfl rfl
    rfl .reference rfl
  refine ⟨⟨_, blocked, (nodeBlocked _ _ _).1.mp blocked⟩, (shows_ fun names isBlocked => ?_).2⟩
  exact renderNamedTypeWithin_ne_of_unblocked rfl rfl name_unblocked
    ((nameBlocked 0 0 names).1.mpr isBlocked)

end DeclaredName

end Mson
