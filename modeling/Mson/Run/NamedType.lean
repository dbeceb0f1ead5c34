import Mson.Run.RenderedPayload

/-!
# Rendering one declared type

The schema and the example of a declared type, asked for by its name.
-/
namespace Mson

inductive NamedTypeError where
  | unknown (name : String)
  | selfReferencing (names : List String)
  | tooDeep (name : String)
  /-- A rendering failed for another reason than its depth. -/
  | rendering (fault : RenderFault)
  deriving DecidableEq, Repr

def NamedTypeError.message : NamedTypeError → String
  | .unknown name => "Unknown data structure: " ++ name
  | .selfReferencing names => selfReferenceMessage names
  | .tooDeep name => "Rendering " ++ name ++ " exceeded the maximum recursion depth."
  | .rendering _ => "Rendering failed."

structure NamedType where
  name : String
  schema : Schema
  example_ : Value

/-- The types that reach themselves among a type and those it reaches, sorted. -/
def blockingTypes (types : SymbolTable) (name : String) (element : Element) : List String :=
  let reached := reachableNames types element
  sortNames ((cyclicNames types).filter fun cyclic => cyclic = name || reached.contains cyclic)

def namedFault (name : String) : RenderFault → NamedTypeError
  | .depthExceeded => .tooDeep name
  | fault => .rendering fault

/-- Renders the declared type of the given name within limits. -/
def renderNamedTypeWithin (steps depth : Nat) (types : SymbolTable) (name : String)
    (settings : Settings) : Except NamedTypeError NamedType :=
  match Mapping.get? types name with
  | none => .error (.unknown name)
  | some element => do
      if settings.rendering.skipCyclicTypes then
        let blocking := blockingTypes types name element
        unless blocking.isEmpty do throw (.selfReferencing blocking)
      let schema ← (renderSchemaWithin steps types depth element).mapError (namedFault name)
      let value ← (renderExampleWithin steps types depth element).mapError (namedFault name)
      return ⟨name, withDialect settings.output.schemaUri schema, value⟩

/-- Renders the declared type of the given name. -/
def renderNamedType (types : SymbolTable) (name : String) (settings : Settings) :
    Except NamedTypeError NamedType :=
  renderNamedTypeWithin expansionSteps renderDepth types name settings

end Mson
