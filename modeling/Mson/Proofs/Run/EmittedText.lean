import Mson.Proofs.Json.Validity
import Mson.Proofs.Rendering.Finite
import Mson.Proofs.Run.Provenance

/-!
# Emitted texts are JSON

What a payload shows, generated or given, is the text of a value that reading makes of the file or of
the given text. Such a text is standard JSON exactly if no double in the value is NaN or infinite, and
that is so wherever all numerals that were read are in the range of the doubles
(`emitted_text_valid_iff`). Of a numeral beyond that range reading makes an infinite double, for which
JSON has no text.
-/
namespace Mson

/-! ## Texts of values -/

theorem isValid_prettyText_iff {indent : Nat} {value : Json} :
    Json.IsValid (prettyText indent value).toList ↔ value.AllFinite := by
  rw [prettyText, Json.print, String.toList_ofList]
  exact Json.isValid_printAt_iff

/-- Whether an artifact shows a value that was read from a source. It is then JSON exactly if no double
in the value is NaN or infinite, which is so if the numerals of the source are in range. -/
structure ShowsJson (indent : Nat) (source : List Char) (artifact : Artifact) (value : Json) :
    Prop where
  text : artifact.text = some (prettyText indent value)
  valid_iff : Json.IsValid (prettyText indent value).toList ↔ value.AllFinite
  inRange : Json.InRange source → value.AllFinite

/-- What an artifact shows: if it is generated, a value of the file, and if it is given as JSON, the
value of the given text. -/
structure EmitsJson (indent : Nat) (file : List Char) (given : Option String) (artifact : Artifact) :
    Prop where
  generated : artifact.source = .generated → ∃ value, ShowsJson indent file artifact value
  provided : artifact.source = .provided → ∃ text, given = some text ∧
    ∀ value, Json.IsText .standard text.toList value → ShowsJson indent text.toList artifact value

/-! ## Given texts -/

theorem showsJson_ofProvided {indent : Nat} {text : String} {value : Json} {artifact : Artifact}
    (isText : Json.IsText .standard text.toList value)
    (success : Artifact.ofProvided indent (some text) = .ok artifact) :
    ShowsJson indent text.toList artifact value := by
  rcases isText.reads with read | ⟨-, fault, failed, isLong⟩
  · obtain ⟨shown, ⟨printed, -⟩, rfl⟩ := Artifact.ofProvided_some success
    exact ⟨congrArg some (printed value read), isValid_prettyText_iff, (·.allFinite read)⟩
  · -- A number that is too long leaves nothing to show.
    simp only [Artifact.ofProvided, Json.read, failed, isLong] at success
    cases success

section Given

variable {enabled : Bool} {errors : List PayloadError} {given artifact : Artifact}

/-- A given artifact is shown as it is wherever one is shown as given. -/
theorem ShownFor.eq_of_provided (shown : ShownFor enabled errors given artifact)
    (provided : artifact.source = .provided) : artifact = given := by
  cases shown with
  | given => rfl
  | rendered => cases provided
  | failed => cases provided

theorem ShownFor.provided {indent : Nat} {text : Option String}
    (shown : ShownFor enabled errors given artifact)
    (read : Artifact.ofProvided indent text = .ok given) (provided : artifact.source = .provided) :
    ∃ given, text = some given ∧ ∀ value, Json.IsText .standard given.toList value →
      ShowsJson indent given.toList artifact value := by
  obtain ⟨given, -, rfl, -, -⟩ := (shown.honest read).provided provided
  cases shown.eq_of_provided provided
  exact ⟨given, rfl, fun value isText => showsJson_ofProvided isText read⟩

theorem Artifact.source_ofProvided {indent : Nat} {text : Option String}
    (read : ofProvided indent text = .ok given) : given.source ≠ .generated := by
  cases text with
  | none =>
    cases ofProvided_none read
    exact nofun
  | some text =>
    obtain ⟨shown, -, rfl⟩ := ofProvided_some read
    exact nofun

end Given

/-! ## Generated texts -/

section Generated

variable {steps depth : Nat} {types : SymbolTable} {cyclic : List String} {settings : Settings}
  {payload : Payload} {schema body : Artifact} {rendered : RenderedPayload}

theorem ofValue_of_schemaArtifact {element : Element} {result : Artifact × List PayloadError}
    (notGenerated : schema.source ≠ .generated)
    (success : schemaArtifact steps depth types settings element schema = .ok result)
    (generated : result.1.source = .generated) :
    ∃ content, renderSchemaWithin steps types depth element = .ok content ∧
      Artifact.ofValue settings.output.indent
        (.object (withDialect settings.output.schemaUri content)) = .ok result.1 := by
  unfold schemaArtifact at success
  split at success
  · rcases renderArtifact_cases success with ⟨content, rendered, shown, -⟩ | ⟨-, rfl⟩
    · exact ⟨content, rendered, shown⟩
    · cases generated
  · cases success
    exact absurd generated notGenerated

theorem ofValue_of_bodyArtifact {element : Element} {result : Artifact × List PayloadError}
    (notGenerated : body.source ≠ .generated)
    (success : bodyArtifact steps depth types settings element body = .ok result)
    (generated : result.1.source = .generated) :
    ∃ example_, renderExampleWithin steps types depth element = .ok example_ ∧
      Artifact.ofValue settings.output.indent example_ = .ok result.1 := by
  unfold bodyArtifact at success
  split at success
  · rcases renderArtifact_cases success with ⟨example_, rendered, shown, -⟩ | ⟨-, rfl⟩
    · split at shown
      · cases shown
        exact absurd generated notGenerated
      · exact ⟨example_, rendered, shown⟩
    · cases generated
  · cases success
    exact absurd generated notGenerated

/-- What is generated shows the JSON form of the value that it is made of. -/
theorem exists_json_of_ofValue {indent : Nat} {value : Value} {artifact : Artifact}
    {file : List Char} (success : Artifact.ofValue indent value = .ok artifact)
    (finite : Json.InRange file → value.AllFinite) : ∃ json, ShowsJson indent file artifact json := by
  obtain ⟨json, form, rfl⟩ := Artifact.exists_of_ofValue success
  exact ⟨json, rfl, isValid_prettyText_iff, fun inRange => (finite inRange).toJson value json form⟩

variable {file : List Char}
  (from_ : RenderedFrom steps depth types cyclic settings payload schema body rendered)
  (declared : Json.InRange file → ∀ entry ∈ types, entry.2.AllFinite)
  (defined : Json.InRange file → ∀ definition, payload.dataStructure = some definition →
    (Json.object definition).AllFinite)

include from_ declared defined

theorem RenderedFrom.schema_generated
    (read : Artifact.ofProvided settings.output.indent payload.providedSchema = .ok schema)
    (generated : rendered.schema.source = .generated) :
    ∃ value, ShowsJson settings.output.indent file rendered.schema value := by
  have notGenerated := Artifact.source_ofProvided read
  cases from_ with
  | blocked blocked =>
    exact absurd generated (unrendered_failIfAbsent read).notGenerated
  | nothing => exact absurd generated notGenerated
  | element given _ parsed schemaShown _ =>
    obtain ⟨content, success, shown⟩ := ofValue_of_schemaArtifact notGenerated schemaShown generated
    refine exists_json_of_ofValue shown fun inRange => ?_
    have finite := Refract.allFinite_of_parse _ (defined inRange _ given) _ parsed
    exact Value.fromParts_allFinite.holds_overwrite
      (Value.fromParts_allFinite.holds_cons trivial Value.fromParts_allFinite.holds_nil)
      (allFinite_schema (declared inRange) finite success)

theorem RenderedFrom.body_generated
    (read : Artifact.ofProvided settings.output.indent payload.providedBody = .ok body)
    (generated : rendered.body.source = .generated) :
    ∃ value, ShowsJson settings.output.indent file rendered.body value := by
  have notGenerated := Artifact.source_ofProvided read
  cases from_ with
  | blocked blocked =>
    exact absurd generated (unrendered_failIfAbsent read).notGenerated
  | nothing => exact absurd generated notGenerated
  | element given _ parsed _ bodyShown =>
    obtain ⟨example_, success, shown⟩ := ofValue_of_bodyArtifact notGenerated bodyShown generated
    refine exists_json_of_ofValue shown fun inRange => ?_
    have finite := Refract.allFinite_of_parse _ (defined inRange _ given) _ parsed
    exact allFinite_example (declared inRange) finite success

end Generated

/-! ## Descriptions -/

namespace Description

/-- The description in a file is part of what is read of the file. -/
theorem exists_read_of_ofText {file : List Char} {description : Description}
    (opened : ofText file = .ok description) :
    ∃ document, Json.readChars file = .ok document ∧
      Json.IsPart (.object description) document := by
  unfold ofText at opened
  split at opened
  · rename_i document read
    refine ⟨document, read, ?_⟩
    unfold ofJson at opened
    split at opened
    · rename_i enclosed found
      cases opened
      exact .of_field? found
    · cases document <;> cases opened
      exact .self _
  · split at opened <;> cases opened

theorem allFinite_of_ofText {file : List Char} {description : Description}
    (opened : ofText file = .ok description) (inRange : Json.InRange file) :
    (Json.object description).AllFinite := by
  obtain ⟨document, read, isPart⟩ := exists_read_of_ofText opened
  exact (inRange.allFinite read).part isPart

theorem allFinite_types {description : Description} (finite : (Json.object description).AllFinite)
    {entry : String × Element} (declared : entry ∈ description.types) : entry.2.AllFinite := by
  obtain ⟨part, isPart, success⟩ := exists_parsed_of_mem_declarations declared
  exact Refract.allFinite_of_parse part (finite.part isPart) entry.2 success

/-- What a payload of a description shows is JSON exactly if no double in it is NaN or infinite: for
generated texts that is so if the numerals of the file are in range, for given texts that are JSON if
their own numerals are. -/
theorem emitted_text_valid_iff {file : List Char} {description : Description} {payload : Payload}
    {settings : Settings} {steps depth : Nat} {rendered : RenderedPayload}
    (opened : ofText file = .ok description) (found : payload ∈ Payload.discover description)
    (success : description.render settings steps depth payload = .ok rendered) :
    EmitsJson settings.output.indent file payload.providedSchema rendered.schema ∧
      EmitsJson settings.output.indent file payload.providedBody rendered.body := by
  obtain ⟨schema, body, readSchema, readBody, from_⟩ := exists_renderedFrom success
  have declared (inRange : Json.InRange file) :
      ∀ entry ∈ description.types, entry.2.AllFinite := fun _ =>
    allFinite_types (allFinite_of_ofText opened inRange)
  have defined (inRange : Json.InRange file) (definition : Mapping Json)
      (given : payload.dataStructure = some definition) : (Json.object definition).AllFinite :=
    (allFinite_of_ofText opened inRange).part (Payload.isPart_of_mem_discover found given)
  exact ⟨⟨from_.schema_generated declared defined readSchema, from_.shownFor_schema.provided readSchema⟩,
    from_.body_generated declared defined readBody, from_.shownFor_body.provided readBody⟩

end Description

namespace GivenBody

/-! Descriptions with one response, of which a text is declared and the body is given. -/

def response (body : String) : Mapping Json :=
  ("body", .string body) :: SingleResponse.response SingleResponse.text

def describe (body : String) : Description :=
  [("resourceGroups", .array [.object [("resources", .array [.object [("actions", .array
    [.object [("examples", .array [.object [("responses", .array
      [.object (response body)])]])]])]])]])]

def file (body : String) : List Char := Json.printAt .oneLine 0 (.object (describe body))

def payload (body : String) : Payload :=
  .ofItem (response body)
    (Payload.labelOf [none, none, none] ++ Payload.labelSeparator ++ "response" ++ s!" {1}") .response

/-- No example takes the place of the body. -/
def settings : Settings := { rendering := { examples := false, skipCyclicTypes := false } }

theorem discovered (body : String) : payload body ∈ Payload.discover (describe body) :=
  List.mem_singleton_self _

/-- The file holds strings only. -/
theorem every_of_string {holds : Json → Prop} (strings : ∀ text, holds (.string text)) (body : String) :
    (Json.object (describe body)).Every holds := by
  simp [Json.Every, Json.EveryItem, Json.EveryEntry, describe, response, SingleResponse.response,
    SingleResponse.text, strings]

theorem inRange_file (body : String) : Json.InRange (file body) := by
  obtain ⟨denoted, derives, -⟩ := Json.shows_printAt .oneLine 0 (.object (describe body))
    (every_of_string Json.showsScalar_string body)
  exact ⟨denoted, _, derives, Json.padded_self _⟩

theorem isValid_file (body : String) : Json.IsValid (file body) :=
  Json.isValid_printAt .oneLine 0 (every_of_string (fun _ => trivial) body)

theorem opened (body : String) : Description.ofText (file body) = .ok (describe body) := by
  have wellFormed : (Json.object (describe body)).WellFormed := by
    simp [Json.WellFormed, Json.ItemsWellFormed, Json.EntriesWellFormed, describe, response,
      SingleResponse.response, SingleResponse.text, Mapping.NamesDistinct, Mapping.names]
  have read := Json.read_print wellFormed (every_of_string (fun _ => trivial) body) .oneLine
  rw [Description.ofText, file, read]
  rfl

def small : Json.Numeral := ⟨false, ['1', '5'], [], none⟩

theorem valid_small : small.Valid where
  leading := .inr ⟨_, _, rfl, by decide⟩
  whole _ among := List.all_eq_true.mp (by decide) _ among
  fraction _ none := nomatch none
  exponent _ none := nomatch none

/-- Both the schema that is generated and the body that is given are shown as JSON. -/
theorem emitted_text_valid_iff_small :
    ∃ rendered, (describe "15").render settings expansionSteps renderDepth (payload "15") =
        .ok rendered ∧
      (rendered.schema.source = .generated ∧
        ∃ text, rendered.schema.text = some text ∧ Json.IsValid text.toList) ∧
      rendered.body.source = .provided ∧
        ∃ text, rendered.body.text = some text ∧ Json.IsValid text.toList := by
  have sources : (do
      let rendered ← (describe "15").render settings expansionSteps renderDepth (payload "15")
      return (rendered.schema.source, rendered.body.source)) = .ok (.generated, .provided) := by
    decide +kernel
  obtain ⟨rendered, success, sources⟩ := map_eq_ok_iff.mp sources
  obtain ⟨generated, provided⟩ := Prod.mk.inj sources
  obtain ⟨schema, body⟩ :=
    Description.emitted_text_valid_iff (opened "15") (discovered "15") success
  obtain ⟨value, shown⟩ := schema.generated generated
  obtain ⟨text, given, same⟩ := body.provided provided
  cases given
  have isText : Json.IsText .standard "15".toList small.value := Json.isText_numeral valid_small
  refine ⟨rendered, success, ⟨generated, _, shown.text, ?_⟩, provided, _, (same _ isText).text, ?_⟩
  · exact shown.valid_iff.mpr (shown.inRange (inRange_file "15"))
  · exact (same _ isText).valid_iff.mpr trivial

/-- Ten to the power of four hundred. -/
def huge : Json.Numeral := ⟨false, ['1'], [], some ⟨'e', [], ['4', '0', '0']⟩⟩

theorem valid_huge : huge.Valid where
  leading := .inr ⟨_, _, rfl, by decide⟩
  whole := List.forall_mem_singleton.mpr rfl
  fraction _ none := nomatch none
  exponent _ some_ := by
    cases some_
    exact ⟨.inl rfl, .inl rfl, nofun, fun _ => List.all_eq_true.mp (by decide) _⟩

/-- A body that is JSON is shown as the word that stands for an infinite double. -/
theorem huge_body_not_valid :
    Json.IsValid (file "1e400") ∧ Description.ofText (file "1e400") = .ok (describe "1e400") ∧
      payload "1e400" ∈ Payload.discover (describe "1e400") ∧
      (payload "1e400").providedBody = some "1e400" ∧ Json.IsValid "1e400".toList ∧
      (∃ rendered, (describe "1e400").render settings expansionSteps renderDepth (payload "1e400") =
        .ok rendered ∧ rendered.body = ⟨some "Infinity", .provided⟩) ∧
      ¬ Json.IsValid "Infinity".toList := by
  have shown : (do
      let rendered ← (describe "1e400").render settings expansionSteps renderDepth (payload "1e400")
      return rendered.body) = .ok ⟨some "Infinity", .provided⟩ := by
    decide +kernel
  refine ⟨isValid_file _, opened _, discovered _, rfl, ⟨_, Json.isText_numeral valid_huge⟩,
    map_eq_ok_iff.mp shown, fun valid => ?_⟩
  exact Json.isValid_printAt_iff.mp
    (show Json.IsValid (Json.printAt .oneLine 0 (.double (.infinity false))) from valid)

end GivenBody

end Mson
