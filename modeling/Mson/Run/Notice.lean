import Mson.Run.RenderedPayload

/-!
# Notices of a run

What is logged while types are collected and payloads are rendered.
-/
namespace Mson

inductive Level where
  | debug
  | info
  | warning
  deriving DecidableEq, Repr

def Level.name : Level → String
  | .debug => "DEBUG"
  | .info => "INFO"
  | .warning => "WARNING"

inductive Notice where
  | skippedDeclaration (skipped : SkippedDeclaration)
  | knownTypes (names : List String)
  | selfReferencing (names : List String)
  | payloadError (label : String) (error : PayloadError)
  | rendered (payloads failed : Nat) (path : String)

namespace Notice

def level : Notice → Level
  | .knownTypes _ => .debug
  | .rendered .. => .info
  | _ => .warning

/-- The name under which the part of the program that gives the notice logs. -/
def logger : Notice → String
  | .skippedDeclaration _ | .knownTypes _ => "mson_render.type_inheritance.symbol_table"
  | _ => "mson_render.payload_rendering.render_run_use_case"

def message : Notice → String
  | .skippedDeclaration skipped =>
      s!"Skipping malformed data structure {skipped.name}: {skipped.reason.message}"
  | .knownTypes names =>
      let listed := ", ".intercalate names
      "Known data structures: " ++ (if listed = "" then "<none>" else listed)
  | .selfReferencing names => "Self-referencing data structures: " ++ ", ".intercalate names
  | .payloadError label error => s!"{label}: {error.message}"
  | .rendered payloads failed path =>
      s!"Rendered {payloads} payloads ({failed} with errors) from {path}"

end Notice

/-- The notices of collecting the declared types. -/
def Declarations.notices (declared : Declarations) : List Notice :=
  declared.skipped.map .skippedDeclaration ++ [.knownTypes (Mapping.names declared.types)]

end Mson
