import Mson.Proofs.Api.Payload
import Mson.Proofs.Reachability
import Mson.Proofs.Rendering.Printable
import Mson.Proofs.Rendering.Success
import Mson.Run.Outcome

/-!
# Payloads and the run

What goes wrong with a payload is recorded with it: a data structure that is blocked, a rendering that
nests too deep (`mem_errors_iff`). Beyond that a payload is rendered exactly if its texts can be
written (`exists_renderPayloadWithin_iff`): a given text must not hold a number too long to be read,
and a rendered value must have a JSON form. A payload whose texts cannot be written ends the run
(`run_completes_iff`).
-/
namespace Mson

/-! ## Texts -/

/-- Whether a text that a description gives can be shown: as JSON, or as it is if it is none. -/
def Readable : Option String → Prop
  | none => True
  | some text => ∀ fault, Json.read text = .error fault → fault.cause.isGrammatical = true

namespace Artifact

theorem exists_ofProvided_iff {indent : Nat} {given : Option String} :
    (∃ artifact, ofProvided indent given = .ok artifact) ↔ Readable given := by
  cases given with
  | none => simp [ofProvided, Readable]
  | some text =>
    cases read : Json.read text with
    | ok value => simp [ofProvided, Readable, read]
    | error fault =>
      by_cases grammatical : fault.cause.isGrammatical = true <;>
        simp [ofProvided, Readable, read, grammatical]

theorem isSome_text_ofProvided {indent : Nat} {given : Option String} {artifact : Artifact}
    (success : ofProvided indent given = .ok artifact) : artifact.text.isSome = given.isSome := by
  unfold ofProvided at success
  split at success
  · cases success
    rfl
  · split at success
    · cases success
      rfl
    · split at success
      · cases success
        rfl
      · cases success

theorem exists_ofValue_iff {indent : Nat} {value : Value} :
    (∃ artifact, ofValue indent value = .ok artifact) ↔ value.IsJson := by
  unfold ofValue Value.IsJson
  cases value.toJson? <;> simp

end Artifact

/-! ## Artifacts -/

/-- Whether a rendering came to its end or was cut off for its depth. -/
def EndsOrTooDeep {α : Type} (rendered : Except RenderFault α) : Prop :=
  rendered = .error .depthExceeded ∨ ∃ value, rendered = .ok value

/-- Where rendering has no faults of its own, only the expansion of mixins can keep it from its
end. -/
theorem endsOrTooDeep {α : Type} {rendered : Except RenderFault α} (only : OnlyLimits rendered)
    (expands : rendered ≠ .error .expansionExceeded) : EndsOrTooDeep rendered := by
  cases rendered with
  | ok value => exact .inr ⟨value, rfl⟩
  | error fault =>
    have isLimit := only fault rfl
    cases fault with
    | depthExceeded => exact .inl rfl
    | expansionExceeded => exact absurd rfl expands
    | unreadableFlags _ => cases isLimit
    | widening _ => cases isLimit

section Artifact

variable {α : Type} {fallback : Artifact} {tooDeep : PayloadError}
  {rendered : Except RenderFault α} {text : α → Except RunFault Artifact}

theorem exists_renderArtifact_iff (ends : EndsOrTooDeep rendered) :
    (∃ result, renderArtifact fallback tooDeep (do return text (← rendered)) = .ok result) ↔
      ∀ value, rendered = .ok value → ∃ artifact, text value = .ok artifact := by
  rcases ends with rfl | ⟨value, rfl⟩
  · refine ⟨fun _ value impossible => ?_, fun _ => ⟨_, rfl⟩⟩
    cases impossible
  · constructor
    · rintro ⟨result, success⟩ other ⟨⟩
      change (text value).map _ = .ok result at success
      cases shown : text value with
      | ok artifact => exact ⟨artifact, rfl⟩
      | error fault =>
        rw [shown] at success
        cases success
    · intro each
      obtain ⟨artifact, shown⟩ := each value rfl
      refine ⟨(artifact, []), ?_⟩
      change (text value).map _ = _
      rw [shown]
      rfl

/-- A rendering comes to its text, or it was too deep and leaves the text of the fallback. -/
theorem renderArtifact_cases {result : Artifact × List PayloadError}
    (success : renderArtifact fallback tooDeep (do return text (← rendered)) = .ok result) :
    (∃ value, rendered = .ok value ∧ text value = .ok result.1 ∧ result.2 = []) ∨
      rendered = .error .depthExceeded ∧
        result = ({ fallback with source := .failed }, [tooDeep]) := by
  cases rendered with
  | ok value =>
    obtain ⟨artifact, shown, rfl⟩ := map_eq_ok_iff.mp success
    exact .inl ⟨value, rfl, shown, rfl⟩
  | error fault =>
    cases fault <;> cases success
    exact .inr ⟨rfl, rfl⟩

/-- The only error of an artifact is that its rendering was too deep. -/
theorem mem_errors_renderArtifact {result : Artifact × List PayloadError}
    (success : renderArtifact fallback tooDeep (do return text (← rendered)) = .ok result)
    {error : PayloadError} :
    error ∈ result.2 ↔ error = tooDeep ∧ rendered = .error .depthExceeded := by
  rcases renderArtifact_cases success with ⟨value, rfl, -, clean⟩ | ⟨rfl, rfl⟩
  · simp [clean]
  · simp

/-- An artifact without errors is the text of what was rendered. -/
theorem text_of_renderArtifact {result : Artifact × List PayloadError}
    (success : renderArtifact fallback tooDeep (do return text (← rendered)) = .ok result)
    (clean : result.2 = []) : ∃ value, rendered = .ok value ∧ text value = .ok result.1 := by
  rcases renderArtifact_cases success with ⟨value, rendered, shown, -⟩ | ⟨-, rfl⟩
  · exact ⟨value, rendered, shown⟩
  · cases clean

end Artifact

/-! ## Parts of a payload -/

section Payload

variable {steps depth : Nat} {types : SymbolTable} {cyclic : List String} {settings : Settings}
  {payload : Payload}

/-- The schema of a payload in place of the given one. -/
def schemaArtifact (steps depth : Nat) (types : SymbolTable) (settings : Settings)
    (element : Element) (given : Artifact) : Except RunFault (Artifact × List PayloadError) :=
  if generatesSchema settings.rendering given then
    renderArtifact given .schemaTooDeep (generatedSchema steps depth types settings element)
  else pure (given, [])

/-- The body of a payload in place of the given one. -/
def bodyArtifact (steps depth : Nat) (types : SymbolTable) (settings : Settings)
    (element : Element) (given : Artifact) : Except RunFault (Artifact × List PayloadError) :=
  if settings.rendering.examples then
    renderArtifact given .exampleTooDeep (generatedBody steps depth types settings given element)
  else pure (given, [])

theorem renderPayloadWithin_of_error {error : PayloadError}
    (blocked : payloadElement types cyclic settings.rendering payload = .error error) :
    renderPayloadWithin steps depth types cyclic settings payload = do
      let schema ← Artifact.ofProvided settings.output.indent payload.providedSchema
      let body ← Artifact.ofProvided settings.output.indent payload.providedBody
      return ⟨payload.label, payload.direction,
        if settings.rendering.schemas then schema.failIfAbsent else schema,
        if settings.rendering.examples then body.failIfAbsent else body, [error]⟩ := by
  unfold renderPayloadWithin
  simp only [blocked]

theorem renderPayloadWithin_of_none
    (nothing : payloadElement types cyclic settings.rendering payload = .ok none) :
    renderPayloadWithin steps depth types cyclic settings payload = do
      let schema ← Artifact.ofProvided settings.output.indent payload.providedSchema
      let body ← Artifact.ofProvided settings.output.indent payload.providedBody
      return ⟨payload.label, payload.direction, schema, body, []⟩ := by
  unfold renderPayloadWithin
  simp only [nothing]

theorem renderPayloadWithin_of_some {element : Element}
    (given : payloadElement types cyclic settings.rendering payload = .ok (some element)) :
    renderPayloadWithin steps depth types cyclic settings payload = do
      let schema ← Artifact.ofProvided settings.output.indent payload.providedSchema
      let schema ← schemaArtifact steps depth types settings element schema
      let body ← Artifact.ofProvided settings.output.indent payload.providedBody
      let body ← bodyArtifact steps depth types settings element body
      return ⟨payload.label, payload.direction, schema.1, body.1, schema.2 ++ body.2⟩ := by
  unfold renderPayloadWithin
  simp only [given, schemaArtifact, bodyArtifact, bind_ite]

/-- Whether the settings ask for a schema although, perhaps, the payload gives one. -/
def wantsSchema (settings : RenderingSettings) (payload : Payload) : Bool :=
  settings.schemas && !(payload.providedSchema.isSome && settings.keepProvidedSchemas)

theorem generatesSchema_ofProvided {indent : Nat} {given : Artifact}
    (success : Artifact.ofProvided indent payload.providedSchema = .ok given) :
    generatesSchema settings.rendering given = wantsSchema settings.rendering payload := by
  unfold generatesSchema wantsSchema
  rw [Artifact.isSome_text_ofProvided success]

section Element

variable {element : Element} {given : Artifact}

theorem exists_schemaArtifact_iff
    (ends : EndsOrTooDeep (renderSchemaWithin steps types depth element)) :
    (∃ result, schemaArtifact steps depth types settings element given = .ok result) ↔
      (generatesSchema settings.rendering given = true → ∀ schema,
        renderSchemaWithin steps types depth element = .ok schema →
          (Value.object (withDialect settings.output.schemaUri schema)).IsJson) := by
  unfold schemaArtifact
  split
  · rename_i wanted
    rw [generatedSchema, exists_renderArtifact_iff ends]
    simp only [wanted, true_implies, Artifact.exists_ofValue_iff]
  · rename_i unwanted
    simp [unwanted, pure, Except.pure]

theorem exists_bodyArtifact_iff
    (ends : EndsOrTooDeep (renderExampleWithin steps types depth element)) :
    (∃ result, bodyArtifact steps depth types settings element given = .ok result) ↔
      (settings.rendering.examples = true → ∀ example_,
        renderExampleWithin steps types depth element = .ok example_ → example_.IsJson) := by
  unfold bodyArtifact
  split
  · rename_i wanted
    have shows_ : ∀ value : Value, (∃ artifact, (if value.isNull then .ok given
        else Artifact.ofValue settings.output.indent value) = .ok artifact) ↔ value.IsJson := by
      intro value
      split
      · rename_i null
        have isNull : value = .null := by cases value <;> first | rfl | cases null
        exact ⟨fun _ => isNull ▸ ⟨.null, rfl⟩, fun _ => ⟨given, rfl⟩⟩
      · exact Artifact.exists_ofValue_iff
    rw [generatedBody, exists_renderArtifact_iff ends]
    simp only [wanted, true_implies, shows_]
  · rename_i unwanted
    simp [unwanted, pure, Except.pure]

theorem mem_errors_schemaArtifact {result : Artifact × List PayloadError}
    (success : schemaArtifact steps depth types settings element given = .ok result)
    {error : PayloadError} :
    error ∈ result.2 ↔ generatesSchema settings.rendering given = true ∧
      error = .schemaTooDeep ∧ renderSchemaWithin steps types depth element = .error .depthExceeded := by
  unfold schemaArtifact at success
  split at success
  · rename_i wanted
    rw [generatedSchema] at success
    rw [mem_errors_renderArtifact success, wanted]
    simp
  · rename_i unwanted
    cases success
    simp [unwanted]

theorem mem_errors_bodyArtifact {result : Artifact × List PayloadError}
    (success : bodyArtifact steps depth types settings element given = .ok result)
    {error : PayloadError} :
    error ∈ result.2 ↔ settings.rendering.examples = true ∧ error = .exampleTooDeep ∧
      renderExampleWithin steps types depth element = .error .depthExceeded := by
  unfold bodyArtifact at success
  split at success
  · rename_i wanted
    rw [generatedBody] at success
    rw [mem_errors_renderArtifact success, wanted]
    simp
  · rename_i unwanted
    cases success
    simp [unwanted]

theorem text_of_schemaArtifact {result : Artifact × List PayloadError}
    (success : schemaArtifact steps depth types settings element given = .ok result)
    (wanted : generatesSchema settings.rendering given = true) (clean : result.2 = []) :
    ∃ schema, renderSchemaWithin steps types depth element = .ok schema ∧
      Artifact.ofValue settings.output.indent
        (.object (withDialect settings.output.schemaUri schema)) = .ok result.1 := by
  rw [schemaArtifact, if_pos wanted, generatedSchema] at success
  exact text_of_renderArtifact success clean

/-- A body that was rendered is the text of the example unless this one is null. -/
theorem text_of_bodyArtifact {result : Artifact × List PayloadError}
    (success : bodyArtifact steps depth types settings element given = .ok result)
    (wanted : settings.rendering.examples = true) (clean : result.2 = []) :
    ∃ example_, renderExampleWithin steps types depth element = .ok example_ ∧
      (example_.isNull = false →
        Artifact.ofValue settings.output.indent example_ = .ok result.1) := by
  rw [bodyArtifact, if_pos wanted, generatedBody] at success
  obtain ⟨example_, rendered, shown⟩ := text_of_renderArtifact success clean
  refine ⟨example_, rendered, fun present => ?_⟩
  rwa [present] at shown

end Element

end Payload

/-! ## Whole payloads -/

/-- Whether all texts of a payload can be written: what is given can be read, and what is rendered in
its place has a JSON form. -/
structure Printable (steps depth : Nat) (types : SymbolTable) (cyclic : List String)
    (settings : Settings) (payload : Payload) : Prop where
  givenSchema : Readable payload.providedSchema
  givenBody : Readable payload.providedBody
  schema : ∀ element schema,
    payloadElement types cyclic settings.rendering payload = .ok (some element) →
    wantsSchema settings.rendering payload = true →
    renderSchemaWithin steps types depth element = .ok schema →
    (Value.object (withDialect settings.output.schemaUri schema)).IsJson
  body : ∀ element example_,
    payloadElement types cyclic settings.rendering payload = .ok (some element) →
    settings.rendering.examples = true →
    renderExampleWithin steps types depth element = .ok example_ → example_.IsJson

/-- What goes wrong with a payload by itself: its data structure is blocked, or a rendering that is
asked for nests too deep. -/
inductive PayloadFailure (steps depth : Nat) (types : SymbolTable) (cyclic : List String)
    (settings : Settings) (payload : Payload) : PayloadError → Prop
  | blocked {error : PayloadError}
      (blocked : payloadElement types cyclic settings.rendering payload = .error error) :
      PayloadFailure steps depth types cyclic settings payload error
  | schemaTooDeep {element : Element}
      (given : payloadElement types cyclic settings.rendering payload = .ok (some element))
      (wanted : wantsSchema settings.rendering payload = true)
      (tooDeep : renderSchemaWithin steps types depth element = .error .depthExceeded) :
      PayloadFailure steps depth types cyclic settings payload .schemaTooDeep
  | exampleTooDeep {element : Element}
      (given : payloadElement types cyclic settings.rendering payload = .ok (some element))
      (wanted : settings.rendering.examples = true)
      (tooDeep : renderExampleWithin steps types depth element = .error .depthExceeded) :
      PayloadFailure steps depth types cyclic settings payload .exampleTooDeep

section Payload

variable {steps depth : Nat} {types : SymbolTable} {cyclic : List String} {settings : Settings}
  {payload : Payload}

/-! What a payload needs and what goes wrong with it depends on the data structure that is given to the
renderers: there may be none, for it is blocked or absent. -/

theorem printable_iff_of_no_element
    (nothing : ∀ element, payloadElement types cyclic settings.rendering payload ≠ .ok (some element)) :
    Printable steps depth types cyclic settings payload ↔
      Readable payload.providedSchema ∧ Readable payload.providedBody :=
  ⟨fun printable => ⟨printable.givenSchema, printable.givenBody⟩,
    fun ⟨schema, body⟩ => ⟨schema, body, fun element _ given => absurd given (nothing element),
      fun element _ given => absurd given (nothing element)⟩⟩

theorem printable_iff_of_some {element : Element}
    (given : payloadElement types cyclic settings.rendering payload = .ok (some element)) :
    Printable steps depth types cyclic settings payload ↔
      Readable payload.providedSchema ∧ Readable payload.providedBody ∧
      (wantsSchema settings.rendering payload = true → ∀ schema,
        renderSchemaWithin steps types depth element = .ok schema →
          (Value.object (withDialect settings.output.schemaUri schema)).IsJson) ∧
      (settings.rendering.examples = true → ∀ example_,
        renderExampleWithin steps types depth element = .ok example_ → example_.IsJson) := by
  constructor
  · intro printable
    exact ⟨printable.givenSchema, printable.givenBody,
      fun wanted schema => printable.schema element schema given wanted,
      fun wanted example_ => printable.body element example_ given wanted⟩
  · rintro ⟨givenSchema, givenBody, schemas, bodies⟩
    refine ⟨givenSchema, givenBody, fun other schema same wanted => ?_,
      fun other example_ same wanted => ?_⟩
    · rw [given] at same
      cases same
      exact schemas wanted schema
    · rw [given] at same
      cases same
      exact bodies wanted example_

theorem payloadFailure_iff_of_error {reason error : PayloadError}
    (blocked : payloadElement types cyclic settings.rendering payload = .error reason) :
    PayloadFailure steps depth types cyclic settings payload error ↔ error = reason := by
  constructor
  · rintro (other | ⟨given, _, _⟩ | ⟨given, _, _⟩)
    · exact Except.error.inj (other.symm.trans blocked)
    · cases blocked.symm.trans given
    · cases blocked.symm.trans given
  · rintro rfl
    exact .blocked blocked

theorem not_payloadFailure_of_none {error : PayloadError}
    (nothing : payloadElement types cyclic settings.rendering payload = .ok none) :
    ¬ PayloadFailure steps depth types cyclic settings payload error := by
  rintro (blocked | ⟨given, _, _⟩ | ⟨given, _, _⟩)
  · cases nothing.symm.trans blocked
  · cases nothing.symm.trans given
  · cases nothing.symm.trans given

theorem payloadFailure_iff_of_some {element : Element} {error : PayloadError}
    (given : payloadElement types cyclic settings.rendering payload = .ok (some element)) :
    PayloadFailure steps depth types cyclic settings payload error ↔
      (wantsSchema settings.rendering payload = true ∧ error = .schemaTooDeep ∧
        renderSchemaWithin steps types depth element = .error .depthExceeded) ∨
      (settings.rendering.examples = true ∧ error = .exampleTooDeep ∧
        renderExampleWithin steps types depth element = .error .depthExceeded) := by
  constructor
  · rintro (blocked | ⟨same, wanted, tooDeep⟩ | ⟨same, wanted, tooDeep⟩)
    · cases given.symm.trans blocked
    · cases given.symm.trans same
      exact .inl ⟨wanted, rfl, tooDeep⟩
    · cases given.symm.trans same
      exact .inr ⟨wanted, rfl, tooDeep⟩
  · rintro (⟨wanted, rfl, tooDeep⟩ | ⟨wanted, rfl, tooDeep⟩)
    · exact .schemaTooDeep given wanted tooDeep
    · exact .exampleTooDeep given wanted tooDeep

/-- A payload of which nothing is rendered needs its given texts only. -/
theorem exists_bind_ofProvided_iff {indent : Nat} {schemaText bodyText : Option String}
    {result : Artifact → Artifact → RenderedPayload} :
    (∃ rendered, (do
      let schema ← Artifact.ofProvided indent schemaText
      let body ← Artifact.ofProvided indent bodyText
      return result schema body) = (.ok rendered : Except RunFault RenderedPayload)) ↔
      Readable schemaText ∧ Readable bodyText := by
  simp only [exists_bind_eq_ok_iff, pure, Except.pure, Except.ok.injEq, exists_eq', and_true]
  rw [← Artifact.exists_ofProvided_iff, ← Artifact.exists_ofProvided_iff]
  exact exists_and_right

/-- A payload whose renderings end or are too deep is rendered exactly if its texts can be written. -/
theorem exists_renderPayloadWithin_iff
    (ends : ∀ element, payloadElement types cyclic settings.rendering payload = .ok (some element) →
      EndsOrTooDeep (renderSchemaWithin steps types depth element) ∧
        EndsOrTooDeep (renderExampleWithin steps types depth element)) :
    (∃ rendered, renderPayloadWithin steps depth types cyclic settings payload = .ok rendered) ↔
      Printable steps depth types cyclic settings payload := by
  cases outcome : payloadElement types cyclic settings.rendering payload with
  | error error =>
    rw [renderPayloadWithin_of_error outcome, exists_bind_ofProvided_iff,
      printable_iff_of_no_element (by simp [outcome])]
  | ok element? =>
    cases element? with
    | none =>
      rw [renderPayloadWithin_of_none outcome, exists_bind_ofProvided_iff,
        printable_iff_of_no_element (by simp [outcome])]
    | some element =>
      obtain ⟨schemaEnds, exampleEnds⟩ := ends element outcome
      rw [renderPayloadWithin_of_some outcome, printable_iff_of_some outcome]
      simp only [exists_bind_eq_ok_iff, pure, Except.pure, Except.ok.injEq, exists_eq', and_true]
      constructor
      · rintro ⟨given, read, schema, shown, givenBody, readBody, body, shownBody⟩
        have schemas := (exists_schemaArtifact_iff schemaEnds).mp ⟨_, shown⟩
        have bodies := (exists_bodyArtifact_iff exampleEnds).mp ⟨_, shownBody⟩
        rw [generatesSchema_ofProvided read] at schemas
        exact ⟨Artifact.exists_ofProvided_iff.mp ⟨given, read⟩,
          Artifact.exists_ofProvided_iff.mp ⟨givenBody, readBody⟩, schemas, bodies⟩
      · rintro ⟨givenSchema, givenBody, schemas, bodies⟩
        obtain ⟨given, read⟩ := Artifact.exists_ofProvided_iff.mpr givenSchema
        obtain ⟨body, readBody⟩ := Artifact.exists_ofProvided_iff.mpr givenBody
        rw [← generatesSchema_ofProvided read] at schemas
        obtain ⟨schemaResult, shown⟩ := (exists_schemaArtifact_iff schemaEnds).mpr schemas
        obtain ⟨bodyResult, shownBody⟩ := (exists_bodyArtifact_iff exampleEnds).mpr bodies
        exact ⟨given, read, schemaResult, shown, body, readBody, bodyResult, shownBody⟩

/-- A rendered payload records what went wrong with it, and nothing else. -/
theorem mem_errors_iff {rendered : RenderedPayload}
    (success : renderPayloadWithin steps depth types cyclic settings payload = .ok rendered)
    {error : PayloadError} :
    error ∈ rendered.errors ↔ PayloadFailure steps depth types cyclic settings payload error := by
  cases outcome : payloadElement types cyclic settings.rendering payload with
  | error reason =>
    rw [renderPayloadWithin_of_error outcome] at success
    obtain ⟨schema, -, success⟩ := bind_eq_ok_iff.mp success
    obtain ⟨body, -, rfl⟩ := map_eq_ok_iff.mp success
    rw [List.mem_singleton, payloadFailure_iff_of_error outcome]
  | ok element? =>
    cases element? with
    | none =>
      rw [renderPayloadWithin_of_none outcome] at success
      obtain ⟨schema, -, success⟩ := bind_eq_ok_iff.mp success
      obtain ⟨body, -, rfl⟩ := map_eq_ok_iff.mp success
      exact iff_of_false List.not_mem_nil (not_payloadFailure_of_none outcome)
    | some element =>
      rw [renderPayloadWithin_of_some outcome] at success
      obtain ⟨given, read, success⟩ := bind_eq_ok_iff.mp success
      obtain ⟨schema, shown, success⟩ := bind_eq_ok_iff.mp success
      obtain ⟨givenBody, readBody, success⟩ := bind_eq_ok_iff.mp success
      obtain ⟨body, shownBody, rfl⟩ := map_eq_ok_iff.mp success
      rw [List.mem_append, mem_errors_schemaArtifact shown, mem_errors_bodyArtifact shownBody,
        generatesSchema_ofProvided read, payloadFailure_iff_of_some outcome]

/-- A payload without errors shows the texts of what is rendered of its data structure. -/
theorem texts_of_renderPayloadWithin {element : Element} {rendered : RenderedPayload}
    (given : payloadElement types cyclic settings.rendering payload = .ok (some element))
    (success : renderPayloadWithin steps depth types cyclic settings payload = .ok rendered)
    (clean : rendered.errors = []) :
    (wantsSchema settings.rendering payload = true →
      ∃ schema, renderSchemaWithin steps types depth element = .ok schema ∧
        Artifact.ofValue settings.output.indent
          (.object (withDialect settings.output.schemaUri schema)) = .ok rendered.schema) ∧
    (settings.rendering.examples = true →
      ∃ example_, renderExampleWithin steps types depth element = .ok example_ ∧
        (example_.isNull = false →
          Artifact.ofValue settings.output.indent example_ = .ok rendered.body)) := by
  rw [renderPayloadWithin_of_some given] at success
  obtain ⟨givenSchema, read, success⟩ := bind_eq_ok_iff.mp success
  obtain ⟨schema, shown, success⟩ := bind_eq_ok_iff.mp success
  obtain ⟨givenBody, -, success⟩ := bind_eq_ok_iff.mp success
  obtain ⟨body, shownBody, rfl⟩ := map_eq_ok_iff.mp success
  obtain ⟨cleanSchema, cleanBody⟩ := List.append_eq_nil_iff.mp clean
  refine ⟨fun wanted => ?_, fun wanted => text_of_bodyArtifact shownBody wanted cleanBody⟩
  rw [← generatesSchema_ofProvided read] at wanted
  exact text_of_schemaArtifact shown wanted cleanSchema

/-- Texts that can be read and contents without elements are all that a payload needs. -/
theorem printable_of_plain (givenSchema : Readable payload.providedSchema)
    (givenBody : Readable payload.providedBody)
    (plain : ∀ element,
      payloadElement types cyclic settings.rendering payload = .ok (some element) →
        Throughout types Visit.IsPlain (.rendered element)) :
    Printable steps depth types cyclic settings payload where
  givenSchema := givenSchema
  givenBody := givenBody
  schema element schema given _ success := by
    have laws := Value.fromParts_isJson
    have dialect : (Value.object [("$schema", .string settings.output.schemaUri)]).IsJson :=
      laws.holds_cons (laws.string _) laws.holds_nil
    exact laws.holds_overwrite dialect (isJson_schema (plain element given) success)
  body element example_ given _ success :=
    isJson_example (plain element given) success

/-- The element of a payload is parsed. -/
theorem parsed_of_payloadElement {rendering : RenderingSettings} {element : Element}
    (wellFormed : ∀ definition, payload.dataStructure = some definition →
      (Json.object definition).WellFormed)
    (given : payloadElement types cyclic rendering payload = .ok (some element)) :
    element.Parsed := by
  unfold payloadElement at given
  split at given
  · cases given
  · rename_i definition defined
    have whole : (Json.object definition).WellFormed := wellFormed definition defined
    split at given
    · cases given
    · rename_i parsed success
      have same : parsed = element := by
        split at given
        · simp only at given
          split at given
          · cases given
            rfl
          · cases given
        · cases given
          rfl
      exact ⟨_, whole, same ▸ success⟩

end Payload

/-! ## Runs -/

/-- A run that gets past a payload goes on with the others. -/
theorem renderPayloads_cons {render : Payload → Except RunFault RenderedPayload} {payload : Payload}
    {rendered : RenderedPayload} (success : render payload = .ok rendered) (others : List Payload) :
    renderPayloads render (payload :: others) =
      (rendered :: (renderPayloads render others).1, (renderPayloads render others).2) := by
  rw [renderPayloads, success]

/-- A run gets to its end exactly if it gets past every payload. -/
theorem renderPayloads_complete_iff {render : Payload → Except RunFault RenderedPayload}
    {payloads : List Payload} :
    (renderPayloads render payloads).2 = none ↔
      ∀ payload ∈ payloads, ∃ rendered, render payload = .ok rendered := by
  induction payloads with
  | nil => simp [renderPayloads]
  | cons payload rest ih =>
    rw [List.forall_mem_cons, ← ih]
    cases outcome : render payload with
    | error fault => simp [renderPayloads, outcome]
    | ok rendered => simp [renderPayloads_cons outcome]

/-- The types that a description declares. -/
def Description.types (description : Description) : SymbolTable :=
  (declarations (.object description)).types

/-- The types of a description that reach themselves. -/
def Description.cyclicTypes (description : Description) : List String :=
  cyclicNames description.types

/-- The element to render for a payload of a description. -/
def Description.element? (description : Description) (settings : Settings) (payload : Payload) :
    Except PayloadError (Option Element) :=
  payloadElement description.types description.cyclicTypes settings.rendering payload

/-- A payload of a description, rendered within limits. -/
def Description.render (description : Description) (settings : Settings) (steps depth : Nat)
    (payload : Payload) : Except RunFault RenderedPayload :=
  renderPayloadWithin steps depth description.types description.cyclicTypes settings payload

/-- The run over a description has an outcome exactly if every payload is rendered. -/
theorem run_completes_iff {description : Description} {settings : Settings} {inputPath : String}
    {outputPath : Option String} :
    (∃ outcome, (runDescription description settings inputPath outputPath).outcome = .ok outcome) ↔
      ∀ payload ∈ Payload.discover description,
        ∃ rendered, description.render settings expansionSteps renderDepth payload = .ok rendered := by
  have gets : (renderPayloads (renderPayload description.types description.cyclicTypes settings)
      (Payload.discover description)).2 = none ↔
        ∀ payload ∈ Payload.discover description,
          ∃ rendered, description.render settings expansionSteps renderDepth payload = .ok rendered :=
    renderPayloads_complete_iff
  rw [← gets]
  cases run : renderPayloads (renderPayload description.types description.cyclicTypes settings)
    (Payload.discover description) with
  | mk payloads fault =>
    have same : renderPayloads (renderPayload (declarations (.object description)).types
      (cyclicNames (declarations (.object description)).types) settings)
        (Payload.discover description) = (payloads, fault) := run
    simp only [runDescription, same]
    cases fault with
    | none => simp
    | some fault => simp

section Description

variable {description : Description} {settings : Settings} {steps depth : Nat} {payload : Payload}

end Description

namespace SingleResponse

/-! Descriptions with one response, which has the given data structure. -/

def response (definition : Mapping Json) : Mapping Json :=
  [("content", .array [.object [("element", .string "dataStructure"),
    ("content", .array [.object definition])]])]

def describe (definition : Mapping Json) : Description :=
  [("resourceGroups", .array [.object [("resources", .array [.object [("actions", .array
    [.object [("examples", .array [.object [("responses", .array
      [.object (response definition)])]])]])]])]])]

def payload (definition : Mapping Json) : Payload :=
  .ofItem (response definition)
    (Payload.labelOf [none, none, none] ++ Payload.labelSeparator ++ "response" ++ s!" {1}") .response

theorem discovered (definition : Mapping Json) :
    payload definition ∈ Payload.discover (describe definition) :=
  List.mem_singleton_self _

theorem types_describe (definition : Mapping Json) : (describe definition).types = [] := rfl

theorem element_describe {definition : Mapping Json} {element : Element}
    (parses : Refract.parse (.object definition) = .ok element)
    (unnamed : element.mentions [] = []) :
    (describe definition).element? {} (payload definition) = .ok (some element) := by
  have reachable : reachableNames [] element = [] := by
    rw [reachableNames, unnamed, reachFrom_nil]
  have defined : (payload definition).dataStructure = some definition := rfl
  have nothing : ([] : List String).isEmpty = true := rfl
  simp only [Description.element?, payloadElement, types_describe, defined, parses, if_true,
    reachable, List.filter_nil, nothing]

def text : Mapping Json := [("element", .string "string")]

theorem text_plain {types : SymbolTable} :
    Throughout types Visit.IsPlain (.rendered ⟨"string", .absent, [], []⟩) := by
  have simple : Element.kind ⟨"string", .absent, [], []⟩ = some .string := rfl
  exact .intro ⟨fun _ _ _ => trivial, fun kind => absurd kind (by decide)⟩
    fun after next => absurd next (Step.not_of_primitive simple rfl)

/-- A choice that is a list of texts. -/
def choices : Mapping Json :=
  [("element", .string "enum"), ("content", .array [.object [("element", .string "array"),
    ("content", .array [.object text])]])]

end SingleResponse

end Mson
