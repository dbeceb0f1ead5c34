import Mson.Proofs.JsonForm
import Mson.Proofs.Rendering.Composition

/-!
# Renderings that can be printed

Rendering takes over the contents of primitives and of choices as they are. Where none of those that
are visited holds elements (`Visit.IsPlain`), the rendered schema and the rendered example have JSON
forms: everything else that rendering puts into them is JSON.
-/
namespace Mson

/-- Whether the contents that rendering takes over from a visited element hold no elements. -/
def Visit.IsPlain : Visit → Prop
  | .rendered element =>
      (∀ kind, element.kind = some kind → kind.isPrimitive = true → element.content.IsPlain) ∧
      (element.kind = some .enum → ∀ choice ∈ element.children, choice.content.IsPlain)
  | .listed _ => True

theorem Value.fromParts_isJson : Value.FromParts Value.IsJson where
  null := ⟨.null, rfl⟩
  bool value := ⟨.bool value, rfl⟩
  int value := ⟨.int value, rfl⟩
  string := Value.isJson_string
  array_iff := Value.isJson_array_iff
  object_iff := Value.isJson_object_iff

/-- Descriptions and defaults are JSON, so only contents can be anything else. -/
theorem Visit.IsPlain.gives {visit : Visit} (plain : visit.IsPlain) :
    visit.Gives Value.IsJson := by
  cases visit with
  | listed member => exact fun text _ => Value.isJson_ofJson text
  | rendered element =>
    exact {
      description := fun text _ => Value.isJson_ofJson text
      default_ := fun value _ => Value.isJson_ofJson value
      primitive := fun kind found isPrimitive =>
        Content.isJson_ofContent_iff.mpr (plain.1 kind found isPrimitive)
      choices := fun isEnum choice among =>
        Content.isJson_ofContent_iff.mpr (plain.2 isEnum choice among) }

section

variable {types : SymbolTable} {steps depth : Nat} {element : Element}
  (plain : Throughout types Visit.IsPlain (.rendered element))

include plain

/-- The schema of an element has a JSON form if all contents it is made of are plain. -/
theorem isJson_schema {schema : Schema}
    (success : renderSchemaWithin steps types depth element = .ok schema) :
    (Value.object schema).IsJson :=
  Value.fromParts_isJson.holds_schema (plain.imp fun _ => Visit.IsPlain.gives) success

/-- The example of an element has a JSON form if all contents it is made of are plain. -/
theorem isJson_example {example_ : Value}
    (success : renderExampleWithin steps types depth element = .ok example_) : example_.IsJson :=
  (Value.fromParts_isJson.holds_example steps depth).1 element example_
    (plain.imp fun _ => Visit.IsPlain.gives) success

end

end Mson
