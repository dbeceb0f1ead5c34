import Mson.Api.Payload
import Mson.Example.Rendering
import Mson.Json.Printer
import Mson.Reachability
import Mson.Run.Settings

/-!
# Rendered payloads

Renders the schema and the body of one payload. Text that the description gives is shown as it is,
or pretty-printed if it is JSON; rendered text takes its place where the settings ask for it. A
payload whose data structure is malformed, or reaches a type that reaches itself, is blocked: this
is recorded with the payload, and so is a rendering that nests too deep.
-/
namespace Mson

/-- Where the text of a schema or body comes from. -/
inductive Source where
  | generated
  | provided
  | absent
  | failed
  deriving DecidableEq, Repr

def Source.name : Source → String
  | .generated => "GENERATED"
  | .provided => "PROVIDED"
  | .absent => "ABSENT"
  | .failed => "FAILED"

/-- What is recorded with a payload that could not be rendered. -/
inductive PayloadError where
  | invalidDataStructure (reason : Refract.FormatError)
  | selfReferencing (names : List String)
  | schemaTooDeep
  | exampleTooDeep
  deriving DecidableEq, Repr

def selfReferenceMessage (names : List String) : String :=
  "Data structure references itself: " ++ ", ".intercalate names

def PayloadError.message : PayloadError → String
  | .invalidDataStructure reason => "Invalid data structure: " ++ reason.message
  | .selfReferencing names => selfReferenceMessage names
  | .schemaTooDeep => "Schema rendering exceeded the maximum recursion depth."
  | .exampleTooDeep => "Example rendering exceeded the maximum recursion depth."

/-- What ends a run, because no payload can carry it. -/
inductive RunFault where
  /-- A rendered value holds elements, so it has no JSON text. -/
  | notJson
  /-- A rendering failed for another reason than its depth. -/
  | rendering (fault : RenderFault)
  /-- Provided text holds a number that is too long to be read. -/
  | numberTooLong (message : String)
  deriving DecidableEq, Repr

/-- A schema or body text and where it comes from. -/
structure Artifact where
  text : Option String
  source : Source
  deriving DecidableEq, Repr

structure RenderedPayload where
  label : String
  direction : Direction
  schema : Artifact
  body : Artifact
  errors : List PayloadError
  deriving DecidableEq, Repr

def RenderedPayload.failed (payload : RenderedPayload) : Bool := !payload.errors.isEmpty

/-- The text of a JSON value in a document. -/
def prettyText (indent : Nat) (value : Json) : String := value.print (.indented indent)

namespace Artifact

def missing : Artifact := ⟨none, .absent⟩

/-- Text that the description gives, pretty-printed if it is JSON. -/
def ofProvided (indent : Nat) : Option String → Except RunFault Artifact
  | none => .ok missing
  | some text =>
      match Json.read text with
      | .ok value => .ok ⟨some (prettyText indent value), .provided⟩
      | .error fault =>
          if fault.cause.isGrammatical then .ok ⟨some text, .provided⟩
          else .error (.numberTooLong (fault.message text.toList))

def ofValue (indent : Nat) (value : Value) : Except RunFault Artifact :=
  match value.toJson? with
  | some json => .ok ⟨some (prettyText indent json), .generated⟩
  | none => .error .notJson

/-- Marks an artifact that could not be rendered and was not given either. -/
def failIfAbsent (artifact : Artifact) : Artifact :=
  if artifact.source = .absent then { artifact with source := .failed } else artifact

end Artifact

/-- A schema with the dialect it is written in. -/
def withDialect (uri : String) (schema : Schema) : Schema :=
  Mapping.overwrite [("$schema", .string uri)] schema

/-- The element to render for a payload: none if it has no data structure, an error if it is
blocked. -/
def payloadElement (types : SymbolTable) (cyclic : List String) (settings : RenderingSettings)
    (payload : Payload) : Except PayloadError (Option Element) :=
  match payload.dataStructure with
  | none => .ok none
  | some definition =>
      match Refract.parse (.object definition) with
      | .error reason => .error (.invalidDataStructure reason)
      | .ok element =>
          if settings.skipCyclicTypes then
            let blocking := (reachableNames types element).filter cyclic.contains
            if blocking.isEmpty then .ok (some element)
            else .error (.selfReferencing (sortNames blocking))
          else .ok (some element)

/-- Renders in place of `fallback`. Too deep a rendering is an error of the payload, and leaves the
text of the fallback. -/
def renderArtifact (fallback : Artifact) (tooDeep : PayloadError)
    (rendered : Except RenderFault (Except RunFault Artifact)) :
    Except RunFault (Artifact × List PayloadError) :=
  match rendered with
  | .ok artifact => artifact.map fun artifact => (artifact, [])
  | .error .depthExceeded => .ok ({ fallback with source := .failed }, [tooDeep])
  | .error fault => .error (.rendering fault)

def generatedSchema (steps depth : Nat) (types : SymbolTable) (settings : Settings)
    (element : Element) : Except RenderFault (Except RunFault Artifact) := do
  let schema ← renderSchemaWithin steps types depth element
  return Artifact.ofValue settings.output.indent
    (.object (withDialect settings.output.schemaUri schema))

/-- An example that is null is no body, and leaves what the description gives. -/
def generatedBody (steps depth : Nat) (types : SymbolTable) (settings : Settings)
    (provided : Artifact) (element : Element) :
    Except RenderFault (Except RunFault Artifact) := do
  let value ← renderExampleWithin steps types depth element
  return if value.isNull then .ok provided else Artifact.ofValue settings.output.indent value

/-- Whether a schema is generated although, perhaps, one is given. -/
def generatesSchema (settings : RenderingSettings) (provided : Artifact) : Bool :=
  settings.schemas && !(provided.text.isSome && settings.keepProvidedSchemas)

/-- The schema and the body of a payload, rendered within limits. -/
def renderPayloadWithin (steps depth : Nat) (types : SymbolTable) (cyclic : List String)
    (settings : Settings) (payload : Payload) : Except RunFault RenderedPayload := do
  let indent := settings.output.indent
  let schema ← Artifact.ofProvided indent payload.providedSchema
  match payloadElement types cyclic settings.rendering payload with
  | .error error =>
      let body ← Artifact.ofProvided indent payload.providedBody
      return {
        label := payload.label
        direction := payload.direction
        schema := if settings.rendering.schemas then schema.failIfAbsent else schema
        body := if settings.rendering.examples then body.failIfAbsent else body
        errors := [error] }
  | .ok none =>
      let body ← Artifact.ofProvided indent payload.providedBody
      return ⟨payload.label, payload.direction, schema, body, []⟩
  | .ok (some element) =>
      let (schema, schemaErrors) ←
        if generatesSchema settings.rendering schema then
          renderArtifact schema .schemaTooDeep (generatedSchema steps depth types settings element)
        else pure (schema, [])
      let body ← Artifact.ofProvided indent payload.providedBody
      let (body, bodyErrors) ←
        if settings.rendering.examples then
          renderArtifact body .exampleTooDeep (generatedBody steps depth types settings body element)
        else pure (body, [])
      return ⟨payload.label, payload.direction, schema, body, schemaErrors ++ bodyErrors⟩

/-- Renders the schema and the body of a payload. -/
def renderPayload (types : SymbolTable) (cyclic : List String) (settings : Settings)
    (payload : Payload) : Except RunFault RenderedPayload :=
  renderPayloadWithin expansionSteps renderDepth types cyclic settings payload

end Mson
