import Mson.Proofs.Json.WellFormed

/-!
# Parts of JSON values

A value stands in another one if items and entries lead to it. What is found in a document stands in
it, so that a property of the document that its parts share need not be followed step by step.
-/
namespace Mson.Json

/-- Whether a value stands somewhere in another one, or is it. -/
inductive IsPart : Json → Json → Prop
  | self (value : Json) : IsPart value value
  | item {items : List Json} {item part : Json} (among : item ∈ items) (inside : IsPart part item) :
      IsPart part (.array items)
  | entry {entries : List (String × Json)} {entry : String × Json} {part : Json}
      (among : entry ∈ entries) (inside : IsPart part entry.2) : IsPart part (.object entries)

namespace IsPart

theorem trans {part middle whole : Json} (inner : IsPart part middle) (outer : IsPart middle whole) :
    IsPart part whole := by
  induction outer with
  | self => exact inner
  | item among _ ih => exact .item among (ih inner)
  | entry among _ ih => exact .entry among (ih inner)

theorem of_get? {entries : Mapping Json} {name : String} {value : Json}
    (found : Mapping.get? entries name = some value) : IsPart value (.object entries) :=
  .entry (Mapping.mem_of_get? found) (.self value)

theorem of_field? {name : String} {document value : Json}
    (found : document.field? name = some value) : IsPart value document := by
  cases document with
  | object entries => exact of_get? found
  | _ => cases found

theorem wellFormed {part whole : Json} (isPart : IsPart part whole) (wellFormed : whole.WellFormed) :
    part.WellFormed := by
  induction isPart with
  | self => exact wellFormed
  | item among _ ih => exact ih (itemsWellFormed_iff.mp wellFormed _ among)
  | entry among _ ih => exact ih (entriesWellFormed_iff.mp wellFormed.2 _ among)

end IsPart

end Mson.Json
