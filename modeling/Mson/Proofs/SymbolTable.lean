import Mson.Proofs.Json.Part
import Mson.Proofs.Refract.Shape
import Mson.SymbolTable

/-!
# Declared types are parsed

The symbol table of a well-formed document holds parsed elements: a declaration is part of the
document, and only what parsing makes of it is put into the table.
-/
namespace Mson

/-- What a node defines is part of the node. -/
theorem isPart_of_definition? {node definition : Mapping Json}
    (defined : definition? node = some definition) :
    Json.IsPart (.object definition) (.object node) := by
  unfold definition? at defined
  split at defined
  · rename_i items found
    cases defined
    exact (Json.IsPart.item List.mem_cons_self (.self _)).trans (.of_get? found)
  · rename_i entries found
    cases defined
    exact .of_get? found
  · cases defined

mutual

/-- Data structure nodes stand in the document in which they are found. -/
theorem isPart_of_mem_dataStructures : (json : Json) →
    ∀ node ∈ dataStructures json, Json.IsPart (.object node) json
  | .null, _, member | .bool _, _, member | .int _, _, member | .double _, _, member
  | .string _, _, member => by cases member
  | .array items, node, member =>
    have ⟨_, among, isPart⟩ := isPart_of_mem_dataStructuresInItems items node member
    .item among isPart
  | .object entries, node, member => by
    rw [dataStructures] at member
    split at member
    · rw [List.mem_singleton.mp member]
      exact .self _
    · obtain ⟨entry, among, isPart⟩ := isPart_of_mem_dataStructuresInContent entries node member
      exact .entry among isPart

theorem isPart_of_mem_dataStructuresInItems : (items : List Json) →
    ∀ node ∈ dataStructuresInItems items, ∃ item ∈ items, Json.IsPart (.object node) item
  | [], _, member => by cases member
  | item :: items, node, member => by
    rw [dataStructuresInItems] at member
    rcases List.mem_append.mp member with first | later
    · exact ⟨item, List.mem_cons_self, isPart_of_mem_dataStructures item node first⟩
    · obtain ⟨other, among, isPart⟩ := isPart_of_mem_dataStructuresInItems items node later
      exact ⟨other, List.mem_cons_of_mem _ among, isPart⟩

theorem isPart_of_mem_dataStructuresInContent : (entries : List (String × Json)) →
    ∀ node ∈ dataStructuresInContent entries,
      ∃ entry ∈ entries, Json.IsPart (.object node) entry.2
  | [], _, member => by cases member
  | (name, value) :: entries, node, member => by
    unfold dataStructuresInContent at member
    split at member
    · split at member
      · rename_i items
        obtain ⟨item, among, isPart⟩ := isPart_of_mem_dataStructuresInItems items node member
        exact ⟨_, List.mem_cons_self, .item among isPart⟩
      · cases member
    · obtain ⟨entry, among, isPart⟩ := isPart_of_mem_dataStructuresInContent entries node member
      exact ⟨entry, List.mem_cons_of_mem _ among, isPart⟩

end

/-- An element is declared under the text in its annotations, unless this is empty. -/
theorem Element.id?_eq_some_iff {element : Element} {name : String} :
    element.id? = some name ↔ Mapping.get? element.metadata "id" = some (.string name) ∧ name ≠ "" := by
  unfold Element.id?
  split
  · rename_i found id
    rw [id, Option.some.injEq, Json.string.injEq]
    split
    · rename_i empty
      exact iff_of_false nofun fun ⟨same, present⟩ => present (same ▸ empty)
    · rename_i present
      rw [Option.some.injEq]
      exact ⟨fun same => ⟨same, same ▸ present⟩, And.left⟩
  · rename_i noText
    exact iff_of_false nofun fun ⟨id, _⟩ => noText name id

/-- What holds of the empty table and is kept by every declaration that is put into it holds of the
table of a document. -/
theorem declarations_induction {document : Json} {property : SymbolTable → Prop} (start : property [])
    (keeps : ∀ node ∈ dataStructures document, ∀ definition element name,
      definition? node = some definition → Refract.parse (.object definition) = .ok element →
      element.id? = some name → ∀ types, property types → property (Mapping.put types name element)) :
    property (declarations document).types := by
  have step : ∀ node ∈ dataStructures document, ∀ declared : Declarations,
      property declared.types → property (declared.add node).types := by
    intro node among declared before
    unfold Declarations.add
    split
    · exact before
    · rename_i definition defined
      split
      · exact before
      · rename_i element success
        split
        · exact before
        · rename_i name named
          exact keeps node among definition element name defined success named _ before
  clear keeps
  unfold declarations
  generalize dataStructures document = nodes at step
  have begins : property (⟨[], []⟩ : Declarations).types := start
  generalize (⟨[], []⟩ : Declarations) = declared at begins
  induction nodes generalizing declared with
  | nil => exact begins
  | cons node rest ih =>
    obtain ⟨first, later⟩ := List.forall_mem_cons.mp step
    exact ih later _ (first declared begins)

/-- Every declared type is parsed from a part of the document. -/
theorem exists_parsed_of_mem_declarations {document : Json} {entry : String × Element}
    (member : entry ∈ (declarations document).types) :
    ∃ part, Json.IsPart part document ∧ Refract.parse part = .ok entry.2 := by
  refine @declarations_induction document (fun types => ∀ entry ∈ types, ∃ part,
    Json.IsPart part document ∧ Refract.parse part = .ok entry.2)
    (fun _ none => absurd none List.not_mem_nil) ?_ entry member
  intro node among definition element name defined success _ types parsed entry member
  rcases Mapping.mem_put member with rfl | old
  · exact ⟨.object definition, (isPart_of_definition? defined).trans
      (isPart_of_mem_dataStructures document node among), success⟩
  · exact parsed entry old

theorem declarations_parsed {document : Json} (wellFormed : document.WellFormed) :
    (declarations document).types.Parsed := by
  intro entry member
  obtain ⟨part, isPart, success⟩ := exists_parsed_of_mem_declarations member
  exact ⟨part, isPart.wellFormed wellFormed, success⟩

/-- No type is declared twice. -/
theorem declarations_distinct (document : Json) :
    Mapping.NamesDistinct (declarations document).types :=
  declarations_induction List.nodup_nil fun _ _ _ _ _ _ _ _ _ distinct => distinct.put _ _

/-- Types are declared under names that are not empty. -/
theorem ne_empty_of_mem_declarations {document : Json} {name : String}
    (declared : name ∈ Mapping.names (declarations document).types) : name ≠ "" := by
  refine @declarations_induction document (fun types => ∀ other ∈ Mapping.names types, other ≠ "")
    (fun _ impossible => absurd impossible List.not_mem_nil) ?_ name declared
  intro _ _ _ element id _ _ identified types before other among
  rcases Mapping.mem_names_put.mp among with rfl | earlier
  · exact (Element.id?_eq_some_iff.mp identified).2
  · exact before other earlier

end Mson
