import Mson.Proofs.Refract.Grammar
import Mson.Proofs.Run.Isolation

/-!
# Where the texts of a payload come from

A payload shows a given text, a rendered one, or the given one marked as failed (`ShownFor`). So its
sources tell what is shown (`Honest`), its errors tell whether it was blocked or a rendering was cut
off, and what a blocked payload shows is given (`sources_tell_truth`).
-/
namespace Mson

/-! ## What is given -/

/-- How a given text is shown: pretty-printed if it is JSON, and as it is if it is none. -/
def ShownAs (indent : Nat) (text shown : String) : Prop :=
  (∀ value, Json.read text = .ok value → shown = prettyText indent value) ∧
    ∀ fault, Json.read text = .error fault → shown = text

theorem Artifact.ofProvided_none {indent : Nat} {artifact : Artifact}
    (success : ofProvided indent none = .ok artifact) : artifact = missing :=
  (Except.ok.inj success).symm

theorem Artifact.ofProvided_some {indent : Nat} {text : String} {artifact : Artifact}
    (success : ofProvided indent (some text) = .ok artifact) :
    ∃ shown, ShownAs indent text shown ∧ artifact = ⟨some shown, .provided⟩ := by
  simp only [ofProvided] at success
  split at success
  · rename_i value read
    cases success
    refine ⟨_, ⟨fun other same => ?_, fun fault impossible => ?_⟩, rfl⟩
    · cases read.symm.trans same
      rfl
    · cases read.symm.trans impossible
  · rename_i fault read
    split at success
    · cases success
      refine ⟨text, ⟨fun value impossible => ?_, fun _ _ => rfl⟩, rfl⟩
      cases read.symm.trans impossible
    · cases success

theorem Artifact.exists_of_ofValue {indent : Nat} {value : Value} {artifact : Artifact}
    (success : ofValue indent value = .ok artifact) :
    ∃ json, value.toJson? = some json ∧ artifact = ⟨some (prettyText indent json), .generated⟩ := by
  unfold ofValue at success
  split at success
  · rename_i json form
    cases success
    exact ⟨json, form, rfl⟩
  · cases success

/-! ## What is shown -/

/-- What a payload shows in place of a given artifact: the given one, a rendered text, or the given
one marked as failed. -/
inductive ShownFor (enabled : Bool) (errors : List PayloadError) (given : Artifact) :
    Artifact → Prop
  | given : ShownFor enabled errors given given
  | rendered (wanted : enabled = true) (text : String) :
      ShownFor enabled errors given ⟨some text, .generated⟩
  | failed (wanted : enabled = true) (recorded : errors ≠ []) :
      ShownFor enabled errors given { given with source := .failed }

/-- What the source of an artifact tells: whether there is a text, and whether it is the given one. -/
structure Honest (indent : Nat) (given : Option String) (enabled : Bool)
    (errors : List PayloadError) (artifact : Artifact) : Prop where
  generated : artifact.source = .generated → artifact.text.isSome
  provided : artifact.source = .provided →
    ∃ text shown, given = some text ∧ ShownAs indent text shown ∧ artifact.text = some shown
  absent : artifact.source = .absent → artifact.text = none
  failed : artifact.source = .failed → errors ≠ []
  disabled : enabled = false → artifact.source ≠ .generated ∧ artifact.source ≠ .failed

/-- What is shown of a payload that was not rendered. -/
structure Unrendered (enabled : Bool) (artifact : Artifact) : Prop where
  notGenerated : artifact.source ≠ .generated
  marked : enabled = true → artifact.source = .provided ∨ artifact.source = .failed

section Shown

variable {enabled : Bool} {errors : List PayloadError} {given artifact : Artifact}

theorem ShownFor.mono {more : List PayloadError} (shown : ShownFor enabled errors given artifact)
    (grows : errors ≠ [] → more ≠ []) : ShownFor enabled more given artifact := by
  cases shown with
  | given => exact .given
  | rendered wanted text => exact .rendered wanted text
  | failed wanted recorded => exact .failed wanted (grows recorded)

theorem ShownFor.honest {indent : Nat} {provided : Option String}
    (shown : ShownFor enabled errors given artifact)
    (read : Artifact.ofProvided indent provided = .ok given) :
    Honest indent provided enabled errors artifact := by
  cases shown with
  | rendered wanted text => exact ⟨fun _ => rfl, nofun, nofun, nofun, by simp [wanted]⟩
  | failed wanted recorded => exact ⟨nofun, nofun, nofun, fun _ => recorded, by simp [wanted]⟩
  | given =>
    cases provided with
    | none =>
      cases Artifact.ofProvided_none read
      exact ⟨nofun, nofun, fun _ => rfl, nofun, fun _ => ⟨nofun, nofun⟩⟩
    | some text =>
      obtain ⟨shown, shows_, rfl⟩ := Artifact.ofProvided_some read
      exact ⟨nofun, fun _ => ⟨text, shown, rfl, shows_, rfl⟩, nofun, nofun,
        fun _ => ⟨nofun, nofun⟩⟩

theorem shownFor_renderArtifact {α : Type} {tooDeep : PayloadError}
    {rendered : Except RenderFault α} {text : α → Except RunFault Artifact}
    {result : Artifact × List PayloadError}
    (success : renderArtifact given tooDeep (do return text (← rendered)) = .ok result)
    (texts : ∀ value artifact, text value = .ok artifact → ShownFor true [] given artifact) :
    ShownFor true result.2 given result.1 := by
  rcases renderArtifact_cases success with ⟨value, -, shown, clean⟩ | ⟨-, rfl⟩
  · exact clean ▸ texts value result.1 shown
  · exact .failed rfl (List.cons_ne_nil _ _)

theorem ShownFor.failIfAbsent {error : PayloadError} :
    ShownFor enabled [error] given (if enabled then given.failIfAbsent else given) := by
  cases enabled with
  | false => exact .given
  | true =>
    simp only [if_true, Artifact.failIfAbsent]
    split
    · exact .failed rfl (List.cons_ne_nil _ _)
    · exact .given

theorem unrendered_failIfAbsent {indent : Nat} {provided : Option String}
    (read : Artifact.ofProvided indent provided = .ok given) :
    Unrendered enabled (if enabled then given.failIfAbsent else given) := by
  cases provided with
  | none =>
    cases Artifact.ofProvided_none read
    cases enabled with
    | false => exact ⟨nofun, nofun⟩
    | true => exact ⟨nofun, fun _ => .inr rfl⟩
  | some text =>
    obtain ⟨shown, -, rfl⟩ := Artifact.ofProvided_some read
    cases enabled with
    | false => exact ⟨nofun, nofun⟩
    | true => exact ⟨nofun, fun _ => .inl rfl⟩

end Shown

/-! ## What keeps a payload from being rendered -/

/-- Whether the data structure of a payload is kept from the renderers: it is malformed, or it
reaches a type that reaches itself. -/
inductive Blocked (types : SymbolTable) (cyclic : List String) (settings : RenderingSettings)
    (payload : Payload) : Prop
  | malformed {definition : Mapping Json} (given : payload.dataStructure = some definition)
      (noNode : ¬ Refract.IsNode (.object definition)) : Blocked types cyclic settings payload
  | cyclic {definition : Mapping Json} {element : Element} {name : String}
      (given : payload.dataStructure = some definition)
      (parsed : Refract.parse (.object definition) = .ok element)
      (skips : settings.skipCyclicTypes = true)
      (reached : ReachedFrom types (element.mentions types) name) (reachesItself : name ∈ cyclic) :
      Blocked types cyclic settings payload

/-- Whether a renderer that is asked for the data structure of a payload is cut off for its depth. -/
inductive CutOff (steps depth : Nat) (types : SymbolTable) (settings : RenderingSettings)
    (payload : Payload) : Prop
  | schema {definition : Mapping Json} {element : Element}
      (given : payload.dataStructure = some definition)
      (parsed : Refract.parse (.object definition) = .ok element)
      (wanted : wantsSchema settings payload = true)
      (tooDeep : renderSchemaWithin steps types depth element = .error .depthExceeded) :
      CutOff steps depth types settings payload
  | example_ {definition : Mapping Json} {element : Element}
      (given : payload.dataStructure = some definition)
      (parsed : Refract.parse (.object definition) = .ok element)
      (wanted : settings.examples = true)
      (tooDeep : renderExampleWithin steps types depth element = .error .depthExceeded) :
      CutOff steps depth types settings payload

section Payload

variable {steps depth : Nat} {types : SymbolTable} {cyclic : List String} {settings : Settings}
  {payload : Payload}

theorem isEmpty_blocking_iff {element : Element} :
    ((reachableNames types element).filter cyclic.contains).isEmpty = true ↔
      ∀ name, ReachedFrom types (element.mentions types) name → name ∉ cyclic := by
  simp only [List.isEmpty_iff, List.filter_eq_nil_iff, List.contains_iff_mem, mem_reachableNames_iff]

theorem Blocked.exists_error {rendering : RenderingSettings}
    (blocked : Blocked types cyclic rendering payload) :
    ∃ error, payloadElement types cyclic rendering payload = .error error := by
  unfold payloadElement
  cases blocked with
  | @malformed definition given noNode =>
    cases parsed : Refract.parse (.object definition) with
    | error reason => exact ⟨.invalidDataStructure reason, by simp only [given, parsed]⟩
    | ok element => exact absurd (Refract.parse_sound _ element parsed).1 noNode
  | cyclic given parsed skips reached reachesItself =>
    have blocking := mt isEmpty_blocking_iff.mp fun free => free _ reached reachesItself
    simp only [given, parsed, if_pos skips, if_neg blocking]
    exact ⟨_, rfl⟩

/-- A data structure that is not blocked is given to the renderers. -/
theorem payloadElement_of_not_blocked {rendering : RenderingSettings} {definition : Mapping Json}
    (given : payload.dataStructure = some definition)
    (free : ¬ Blocked types cyclic rendering payload) :
    ∃ element, Refract.parse (.object definition) = .ok element ∧
      payloadElement types cyclic rendering payload = .ok (some element) := by
  have isNode : Refract.IsNode (.object definition) :=
    Classical.not_not.mp fun noNode => free (.malformed given noNode)
  obtain ⟨element, parsed⟩ := isNode.parses
  refine ⟨element, parsed, ?_⟩
  unfold payloadElement
  simp only [given, parsed]
  split
  · rename_i skips
    exact if_pos (isEmpty_blocking_iff.mpr fun name reached reachesItself =>
      free (.cyclic given parsed skips reached reachesItself))
  · rfl

theorem payloadElement_of_none {rendering : RenderingSettings}
    (nothing : payload.dataStructure = none) :
    payloadElement types cyclic rendering payload = .ok none := by
  simp only [payloadElement, nothing]

theorem not_blocked_of_none {rendering : RenderingSettings}
    (nothing : payload.dataStructure = none) : ¬ Blocked types cyclic rendering payload := by
  rintro (⟨given, _⟩ | ⟨given, _, _, _, _⟩)
  · cases nothing.symm.trans given
  · cases nothing.symm.trans given

theorem not_cutOff_of_none {rendering : RenderingSettings}
    (nothing : payload.dataStructure = none) : ¬ CutOff steps depth types rendering payload := by
  rintro (⟨given, _, _, _⟩ | ⟨given, _, _, _⟩)
  · cases nothing.symm.trans given
  · cases nothing.symm.trans given

theorem cutOff_iff_of_parse {rendering : RenderingSettings} {definition : Mapping Json}
    {element : Element} (given : payload.dataStructure = some definition)
    (parsed : Refract.parse (.object definition) = .ok element) :
    CutOff steps depth types rendering payload ↔
      (wantsSchema rendering payload = true ∧
        renderSchemaWithin steps types depth element = .error .depthExceeded) ∨
      (rendering.examples = true ∧
        renderExampleWithin steps types depth element = .error .depthExceeded) := by
  constructor
  · rintro (⟨same, alike, wanted, tooDeep⟩ | ⟨same, alike, wanted, tooDeep⟩) <;>
      cases given.symm.trans same <;> cases parsed.symm.trans alike
    · exact .inl ⟨wanted, tooDeep⟩
    · exact .inr ⟨wanted, tooDeep⟩
  · rintro (⟨wanted, tooDeep⟩ | ⟨wanted, tooDeep⟩)
    · exact .schema given parsed wanted tooDeep
    · exact .example_ given parsed wanted tooDeep

/-! ## Whole payloads -/

/-- How a payload is rendered in place of its given schema and body. -/
inductive RenderedFrom (steps depth : Nat) (types : SymbolTable) (cyclic : List String)
    (settings : Settings) (payload : Payload) (schema body : Artifact) : RenderedPayload → Prop
  | blocked {error : PayloadError} (blocked : Blocked types cyclic settings.rendering payload) :
      RenderedFrom steps depth types cyclic settings payload schema body
        ⟨payload.label, payload.direction,
          if settings.rendering.schemas then schema.failIfAbsent else schema,
          if settings.rendering.examples then body.failIfAbsent else body, [error]⟩
  | nothing (given : payload.dataStructure = none) :
      RenderedFrom steps depth types cyclic settings payload schema body
        ⟨payload.label, payload.direction, schema, body, []⟩
  | element {definition : Mapping Json} {element : Element}
      {schemaResult bodyResult : Artifact × List PayloadError}
      (given : payload.dataStructure = some definition)
      (free : ¬ Blocked types cyclic settings.rendering payload)
      (parsed : Refract.parse (.object definition) = .ok element)
      (schemaShown : schemaArtifact steps depth types settings element schema = .ok schemaResult)
      (bodyShown : bodyArtifact steps depth types settings element body = .ok bodyResult) :
      RenderedFrom steps depth types cyclic settings payload schema body
        ⟨payload.label, payload.direction, schemaResult.1, bodyResult.1,
          schemaResult.2 ++ bodyResult.2⟩

variable {rendered : RenderedPayload}

theorem exists_renderedFrom
    (success : renderPayloadWithin steps depth types cyclic settings payload = .ok rendered) :
    ∃ schema body, Artifact.ofProvided settings.output.indent payload.providedSchema = .ok schema ∧
      Artifact.ofProvided settings.output.indent payload.providedBody = .ok body ∧
      RenderedFrom steps depth types cyclic settings payload schema body rendered := by
  by_cases blocked : Blocked types cyclic settings.rendering payload
  · obtain ⟨error, isError⟩ := blocked.exists_error
    rw [renderPayloadWithin_of_error isError] at success
    obtain ⟨schema, readSchema, success⟩ := bind_eq_ok_iff.mp success
    obtain ⟨body, readBody, rfl⟩ := map_eq_ok_iff.mp success
    exact ⟨schema, body, readSchema, readBody, .blocked blocked⟩
  cases given : payload.dataStructure with
  | none =>
    rw [renderPayloadWithin_of_none (payloadElement_of_none given)] at success
    obtain ⟨schema, readSchema, success⟩ := bind_eq_ok_iff.mp success
    obtain ⟨body, readBody, rfl⟩ := map_eq_ok_iff.mp success
    exact ⟨schema, body, readSchema, readBody, .nothing given⟩
  | some definition =>
    obtain ⟨element, parsed, isElement⟩ := payloadElement_of_not_blocked given blocked
    rw [renderPayloadWithin_of_some isElement] at success
    obtain ⟨schema, readSchema, success⟩ := bind_eq_ok_iff.mp success
    obtain ⟨schemaResult, schemaShown, success⟩ := bind_eq_ok_iff.mp success
    obtain ⟨body, readBody, success⟩ := bind_eq_ok_iff.mp success
    obtain ⟨bodyResult, bodyShown, rfl⟩ := map_eq_ok_iff.mp success
    exact ⟨schema, body, readSchema, readBody, .element given blocked parsed schemaShown bodyShown⟩

section Rendered

variable {schema body : Artifact}

theorem RenderedFrom.errors_ne_nil_iff
    (from_ : RenderedFrom steps depth types cyclic settings payload schema body rendered)
    (read : Artifact.ofProvided settings.output.indent payload.providedSchema = .ok schema) :
    rendered.errors ≠ [] ↔ Blocked types cyclic settings.rendering payload ∨
      CutOff steps depth types settings.rendering payload := by
  cases from_ with
  | blocked blocked => exact iff_of_true (List.cons_ne_nil _ _) (.inl blocked)
  | nothing nothing =>
    refine iff_of_false (fun recorded => recorded rfl) ?_
    rintro (blocked | cutOff)
    · exact not_blocked_of_none nothing blocked
    · exact not_cutOff_of_none nothing cutOff
  | element given free parsed schemaShown bodyShown =>
    rw [or_iff_right free, cutOff_iff_of_parse given parsed, ← generatesSchema_ofProvided read,
      ne_eq, List.eq_nil_iff_forall_not_mem]
    simp only [List.mem_append, mem_errors_schemaArtifact schemaShown,
      mem_errors_bodyArtifact bodyShown, not_forall, not_not]
    constructor
    · rintro ⟨error, ⟨wanted, -, tooDeep⟩ | ⟨wanted, -, tooDeep⟩⟩
      · exact .inl ⟨wanted, tooDeep⟩
      · exact .inr ⟨wanted, tooDeep⟩
    · rintro (⟨wanted, tooDeep⟩ | ⟨wanted, tooDeep⟩)
      · exact ⟨_, .inl ⟨wanted, rfl, tooDeep⟩⟩
      · exact ⟨_, .inr ⟨wanted, rfl, tooDeep⟩⟩

theorem shownFor_schemaArtifact {element : Element} {result : Artifact × List PayloadError}
    (shown : schemaArtifact steps depth types settings element schema = .ok result) :
    ShownFor settings.rendering.schemas result.2 schema result.1 := by
  unfold schemaArtifact at shown
  split at shown
  · rename_i wanted
    have enabled : settings.rendering.schemas = true := (Bool.and_eq_true_iff.mp wanted).1
    rw [enabled]
    refine shownFor_renderArtifact shown fun value artifact written => ?_
    obtain ⟨json, -, rfl⟩ := Artifact.exists_of_ofValue written
    exact .rendered rfl _
  · cases shown
    exact .given

theorem shownFor_bodyArtifact {element : Element} {result : Artifact × List PayloadError}
    (shown : bodyArtifact steps depth types settings element body = .ok result) :
    ShownFor settings.rendering.examples result.2 body result.1 := by
  unfold bodyArtifact at shown
  split at shown
  · rename_i enabled
    rw [enabled]
    refine shownFor_renderArtifact shown fun value artifact written => ?_
    -- A null example leaves the body that is given.
    split at written
    · cases written
      exact .given
    · obtain ⟨json, -, rfl⟩ := Artifact.exists_of_ofValue written
      exact .rendered rfl _
  · cases shown
    exact .given

theorem RenderedFrom.shownFor_schema
    (from_ : RenderedFrom steps depth types cyclic settings payload schema body rendered) :
    ShownFor settings.rendering.schemas rendered.errors schema rendered.schema := by
  cases from_ with
  | blocked => exact .failIfAbsent
  | nothing => exact .given
  | element _ _ _ schemaShown _ =>
    exact (shownFor_schemaArtifact schemaShown).mono (List.append_ne_nil_of_left_ne_nil · _)

theorem RenderedFrom.shownFor_body
    (from_ : RenderedFrom steps depth types cyclic settings payload schema body rendered) :
    ShownFor settings.rendering.examples rendered.errors body rendered.body := by
  cases from_ with
  | blocked => exact .failIfAbsent
  | nothing => exact .given
  | element _ _ _ _ bodyShown =>
    exact (shownFor_bodyArtifact bodyShown).mono (List.append_ne_nil_of_right_ne_nil _)

/-- A schema that is given and kept stands in every rendering of the payload. -/
theorem RenderedFrom.schema_of_kept {shown : String}
    (from_ : RenderedFrom steps depth types cyclic settings payload ⟨some shown, .provided⟩ body
      rendered)
    (keeps : settings.rendering.keepProvidedSchemas = true) :
    rendered.schema = ⟨some shown, .provided⟩ := by
  cases from_ with
  | blocked => exact ite_self _
  | nothing => rfl
  | element _ _ _ schemaShown _ =>
    have kept : generatesSchema settings.rendering ⟨some shown, .provided⟩ = false := by
      simp [generatesSchema, keeps]
    rw [schemaArtifact, kept] at schemaShown
    cases schemaShown
    rfl

theorem RenderedFrom.unrendered
    (from_ : RenderedFrom steps depth types cyclic settings payload schema body rendered)
    (readSchema : Artifact.ofProvided settings.output.indent payload.providedSchema = .ok schema)
    (readBody : Artifact.ofProvided settings.output.indent payload.providedBody = .ok body)
    (blocked : Blocked types cyclic settings.rendering payload) :
    Unrendered settings.rendering.schemas rendered.schema ∧
      Unrendered settings.rendering.examples rendered.body := by
  cases from_ with
  | blocked => exact ⟨unrendered_failIfAbsent readSchema, unrendered_failIfAbsent readBody⟩
  | nothing nothing => exact absurd blocked (not_blocked_of_none nothing)
  | element _ free _ _ _ => exact absurd blocked free

end Rendered

/-- A payload that is rendered has errors exactly if it is blocked or a renderer was cut off. The
sources of its schema and its body tell what is shown; a schema that is given stays where given ones
are kept; and nothing that is shown of a blocked payload was rendered. -/
theorem sources_tell_truth
    (success : renderPayloadWithin steps depth types cyclic settings payload = .ok rendered) :
    (rendered.errors ≠ [] ↔ Blocked types cyclic settings.rendering payload ∨
      CutOff steps depth types settings.rendering payload) ∧
    Honest settings.output.indent payload.providedSchema settings.rendering.schemas rendered.errors
      rendered.schema ∧
    Honest settings.output.indent payload.providedBody settings.rendering.examples rendered.errors
      rendered.body ∧
    (settings.rendering.keepProvidedSchemas = true → ∀ text, payload.providedSchema = some text →
      ∃ shown, ShownAs settings.output.indent text shown ∧
        rendered.schema = ⟨some shown, .provided⟩) ∧
    (Blocked types cyclic settings.rendering payload →
      Unrendered settings.rendering.schemas rendered.schema ∧
        Unrendered settings.rendering.examples rendered.body) := by
  obtain ⟨schema, body, readSchema, readBody, from_⟩ := exists_renderedFrom success
  refine ⟨from_.errors_ne_nil_iff readSchema, from_.shownFor_schema.honest readSchema,
    from_.shownFor_body.honest readBody, fun keeps text given => ?_,
    from_.unrendered readSchema readBody⟩
  rw [given] at readSchema
  obtain ⟨shown, shows_, rfl⟩ := Artifact.ofProvided_some readSchema
  exact ⟨shown, shows_, from_.schema_of_kept keeps⟩

end Payload

namespace MalformedPayload

/-- A payload whose data structure is no node, and that gives a schema. -/
def payload : Payload := ⟨"Notes / GET / response 1", .response, some [], some "unknown", none⟩

theorem noNode : ¬ Refract.IsNode (.object []) := fun isNode => by
  obtain ⟨element, parsed⟩ := isNode.parses
  cases parsed

theorem sources_tell_truth_malformed :
    ∃ rendered, renderPayload [] [] {} payload = .ok rendered ∧ rendered.errors ≠ [] ∧
      rendered.schema.source = .provided ∧ rendered.body.source = .failed := by
  have success : renderPayload [] [] {} payload = .ok ⟨payload.label, payload.direction,
      ⟨some "unknown", .provided⟩, ⟨none, .failed⟩, [.invalidDataStructure .nameMissing]⟩ := by
    decide +kernel
  have blocked : Blocked [] [] {} payload := .malformed rfl noNode
  obtain ⟨errors, -, honest, kept, unrendered⟩ := sources_tell_truth success
  obtain ⟨shown, -, isSchema⟩ := kept rfl "unknown" rfl
  refine ⟨_, success, errors.mpr (.inl blocked), congrArg Artifact.source isSchema, ?_⟩
  rcases (unrendered blocked).2.marked rfl with provided | failed
  · obtain ⟨text, -, impossible, -⟩ := honest.provided provided
    cases impossible
  · exact failed

end MalformedPayload

end Mson
