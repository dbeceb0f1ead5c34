import Mson.Run.Notice

/-!
# Outcome of a run

A run renders every payload of an API description, one after the other. A payload that could not
be rendered carries its errors; only a fault that no payload can carry ends the run, and then the
notices of what came before it remain.
-/
namespace Mson

structure Outcome where
  inputPath : String
  outputPath : Option String
  knownTypes : List String
  cyclicTypes : List String
  payloads : List RenderedPayload
  deriving DecidableEq, Repr

def Outcome.failedCount (outcome : Outcome) : Nat :=
  (outcome.payloads.filter RenderedPayload.failed).length

def RenderedPayload.notices (payload : RenderedPayload) : List Notice :=
  payload.errors.map (.payloadError payload.label)

/-- Renders payloads up to the first fault; the rendered ones and the fault are returned. -/
def renderPayloads (render : Payload → Except RunFault RenderedPayload) :
    List Payload → List RenderedPayload × Option RunFault
  | [] => ([], none)
  | payload :: payloads =>
      match render payload with
      | .error fault => ([], some fault)
      | .ok rendered =>
          let (others, fault) := renderPayloads render payloads
          (rendered :: others, fault)

/-- What a run came to, and what it logged. -/
structure RunResult where
  outcome : Except RunFault Outcome
  notices : List Notice

/-- Renders every payload of a description; paths are recorded as given. -/
def runDescription (description : Description) (settings : Settings) (inputPath : String)
    (outputPath : Option String) : RunResult :=
  let declared := declarations (.object description)
  let cyclic := cyclicNames declared.types
  let sorted := sortNames cyclic
  let (payloads, fault) :=
    renderPayloads (renderPayload declared.types cyclic settings) (Payload.discover description)
  let before := declared.notices ++ (if sorted.isEmpty then [] else [.selfReferencing sorted]) ++
    payloads.flatMap RenderedPayload.notices
  match fault with
  | some fault => ⟨.error fault, before⟩
  | none =>
      let outcome : Outcome :=
        { inputPath, outputPath, payloads
          knownTypes := Mapping.names declared.types
          cyclicTypes := sorted }
      ⟨.ok outcome, before ++ [.rendered payloads.length outcome.failedCount inputPath]⟩

/-! ## The result document -/

def textList (texts : List String) : Json := .array (texts.map Json.string)

def optionalText : Option String → Json
  | some text => .string text
  | none => .null

def RenderedPayload.toJson (payload : RenderedPayload) : Json :=
  .object [("label", .string payload.label), ("direction", .string payload.direction.name),
    ("schema", optionalText payload.schema.text), ("body", optionalText payload.body.text),
    ("schema_source", .string payload.schema.source.name),
    ("body_source", .string payload.body.source.name),
    ("errors", textList (payload.errors.map PayloadError.message))]

/-- The document that a run writes; `startedAt` is when it began. -/
def Outcome.document (outcome : Outcome) (startedAt : String) (indent : Nat) : String :=
  prettyText indent (.object [("input", .string outcome.inputPath),
    ("generated_at", .string startedAt), ("known_types", textList outcome.knownTypes),
    ("cyclic_types", textList outcome.cyclicTypes),
    ("payloads", .array (outcome.payloads.map RenderedPayload.toJson))]) ++ "\n"

end Mson
