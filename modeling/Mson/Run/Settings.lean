/-!
# Settings of a run

What a run generates, and how it is written. All have defaults, so every part may be left out.
-/
namespace Mson

/-- The identifier of the schema dialect that generated schemas are written in. -/
def draft04 : String := "http://json-schema.org/draft-04/schema#"

structure OutputSettings where
  /-- Blanks per level of nesting in generated text. -/
  indent : Nat := 2
  /-- The dialect that generated schemas declare. -/
  schemaUri : String := draft04
  deriving DecidableEq, Repr

structure RenderingSettings where
  /-- Generate schemas. -/
  schemas : Bool := true
  /-- Generate example bodies. -/
  examples : Bool := true
  /-- Prefer the schemas that the description gives. -/
  keepProvidedSchemas : Bool := true
  /-- Report payloads that reach a type which reaches itself, instead of rendering them. -/
  skipCyclicTypes : Bool := true
  deriving DecidableEq, Repr

structure Settings where
  output : OutputSettings := {}
  rendering : RenderingSettings := {}
  deriving DecidableEq, Repr

end Mson
