import Mson.Api.Payload
import Mson.Proofs.SymbolTable

/-!
# Discovered payloads

A payload that is found in a description takes its data structure from it, so what parsing makes of
the data structure of a well-formed description is a parsed element.
-/
namespace Mson.Payload

theorem isPart_of_mem_objectsIn {node : Mapping Json} {name : String} {entries : Mapping Json}
    (member : entries ∈ objectsIn (Mapping.get? node name)) :
    Json.IsPart (.object entries) (.object node) := by
  unfold objectsIn at member
  split at member
  · rename_i items found
    obtain ⟨item, among, isObject⟩ := List.mem_filterMap.mp member
    unfold Json.entries? at isObject
    split at isObject
    · cases isObject
      exact (Json.IsPart.item among (.self _)).trans (.of_get? found)
    · cases isObject
  · cases member

/-- The data structure of a payload item is part of it. -/
theorem isPart_of_dataStructureOf {item definition : Mapping Json}
    (defined : dataStructureOf item = some definition) :
    Json.IsPart (.object definition) (.object item) := by
  unfold dataStructureOf at defined
  split at defined
  · rename_i node last
    have listed := (List.mem_filter.mp (List.mem_of_getLast? last)).1
    exact (isPart_of_definition? defined).trans (isPart_of_mem_objectsIn listed)
  · cases defined

theorem isPart_of_mem_ofExample {example_ : Mapping Json} {label : String} {direction : Direction}
    {payload : Payload} (found : payload ∈ ofExample label example_ direction)
    {definition : Mapping Json} (defined : payload.dataStructure = some definition) :
    Json.IsPart (.object definition) (.object example_) := by
  unfold ofExample at found
  obtain ⟨⟨item, number⟩, numbered, rfl⟩ := List.mem_map.mp found
  have among : item ∈ objectsIn (Mapping.get? example_ direction.field) :=
    List.fst_mem_of_mem_zipIdx numbered
  exact (isPart_of_dataStructureOf defined).trans (isPart_of_mem_objectsIn among)

/-- The data structure of a discovered payload is part of the description. -/
theorem isPart_of_mem_discover {description : Description} {payload : Payload}
    (found : payload ∈ discover description) {definition : Mapping Json}
    (defined : payload.dataStructure = some definition) :
    Json.IsPart (.object definition) (.object description) := by
  obtain ⟨group, isGroup, found⟩ := List.mem_flatMap.mp found
  obtain ⟨resource, isResource, found⟩ := List.mem_flatMap.mp found
  obtain ⟨action, isAction, found⟩ := List.mem_flatMap.mp found
  obtain ⟨example_, isExample, found⟩ := List.mem_flatMap.mp found
  have ofExample : Json.IsPart (.object definition) (.object example_) :=
    (List.mem_append.mp found).elim (isPart_of_mem_ofExample · defined)
      (isPart_of_mem_ofExample · defined)
  have ofAction := ofExample.trans (isPart_of_mem_objectsIn isExample)
  have ofResource := ofAction.trans (isPart_of_mem_objectsIn isAction)
  have ofGroup := ofResource.trans (isPart_of_mem_objectsIn isResource)
  exact ofGroup.trans (isPart_of_mem_objectsIn isGroup)

end Mson.Payload
