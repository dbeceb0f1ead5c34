import Mson.Json.Basic
import Mson.Proofs.Mapping

/-!
# Well-formed JSON

A JSON value is well formed if no object in it has a name twice. Whatever the reader builds is well
formed, since it keeps one entry for each name (`read_wellFormed` in `Mson.Proofs.Json.Result`), so
this is assumed of JSON elsewhere.
-/
namespace Mson

namespace Json

mutual

/-- No object in the value has a name twice. -/
def WellFormed : Json → Prop
  | .array items => ItemsWellFormed items
  | .object entries => Mapping.NamesDistinct entries ∧ EntriesWellFormed entries
  | _ => True

def ItemsWellFormed : List Json → Prop
  | [] => True
  | item :: items => WellFormed item ∧ ItemsWellFormed items

def EntriesWellFormed : List (String × Json) → Prop
  | [] => True
  | (_, value) :: entries => WellFormed value ∧ EntriesWellFormed entries

end

mutual

def decideWellFormed : (json : Json) → Decidable json.WellFormed
  | .null | .bool _ | .int _ | .double _ | .string _ => .isTrue trivial
  | .array items => decideItemsWellFormed items
  | .object entries =>
      have := decideEntriesWellFormed entries
      inferInstanceAs (Decidable ((Mapping.names entries).Nodup ∧ EntriesWellFormed entries))

def decideItemsWellFormed : (items : List Json) → Decidable (ItemsWellFormed items)
  | [] => .isTrue trivial
  | item :: items =>
      have := decideWellFormed item
      have := decideItemsWellFormed items
      inferInstanceAs (Decidable (item.WellFormed ∧ ItemsWellFormed items))

def decideEntriesWellFormed : (entries : List (String × Json)) → Decidable (EntriesWellFormed entries)
  | [] => .isTrue trivial
  | (_, value) :: entries =>
      have := decideWellFormed value
      have := decideEntriesWellFormed entries
      inferInstanceAs (Decidable (value.WellFormed ∧ EntriesWellFormed entries))

end

instance : DecidablePred WellFormed := decideWellFormed

theorem wellFormed_of_get? {entries : Mapping Json} (wellFormed : EntriesWellFormed entries)
    {name : String} {value : Json} (found : Mapping.get? entries name = some value) :
    value.WellFormed := by
  induction entries with
  | nil => cases found
  | cons entry rest ih =>
    rw [Mapping.get?_cons] at found
    split at found
    · cases found
      exact wellFormed.1
    · exact ih wellFormed.2 found

theorem entriesWellFormed_iff {entries : List (String × Json)} :
    EntriesWellFormed entries ↔ ∀ entry ∈ entries, entry.2.WellFormed := by
  induction entries with
  | nil => simp [EntriesWellFormed]
  | cons entry rest ih => simp [EntriesWellFormed, ih]

theorem itemsWellFormed_iff {items : List Json} :
    ItemsWellFormed items ↔ ∀ item ∈ items, item.WellFormed := by
  induction items with
  | nil => simp [ItemsWellFormed]
  | cons item rest ih => simp [ItemsWellFormed, ih]

theorem EntriesWellFormed.overwrite {base changes : Mapping Json} (first : EntriesWellFormed base)
    (second : EntriesWellFormed changes) : EntriesWellFormed (Mapping.overwrite base changes) := by
  rw [entriesWellFormed_iff] at *
  intro entry member
  rcases Mapping.mem_overwrite member with old | new
  · exact first entry old
  · exact second entry new

/-- Entries with a name twice come down to an object that has it once. -/
theorem wellFormed_ofEntries {entries : List (String × Json)} (each : EntriesWellFormed entries) :
    (Json.object (Mapping.ofEntries entries)).WellFormed := by
  have noNames : Mapping.NamesDistinct ([] : Mapping Json) := List.nodup_nil
  exact ⟨noNames.overwrite entries, EntriesWellFormed.overwrite trivial each⟩

/-- There is an object with given names that has given values for them. -/
theorem exists_object {names : List String} {item : String → Json}
    (each : ∀ name ∈ names, (item name).WellFormed) :
    ∃ entries, (Json.object entries).WellFormed ∧
      (∀ name, name ∈ Mapping.names entries ↔ name ∈ names) ∧
      ∀ name value, Mapping.get? entries name = some value → value = item name := by
  have wellFormed : EntriesWellFormed (names.map fun name => (name, item name)) := by
    rw [entriesWellFormed_iff]
    intro entry member
    obtain ⟨name, among, rfl⟩ := List.mem_map.mp member
    exact each name among
  have named : Mapping.names (names.map fun name => (name, item name)) = names := by
    simp [Mapping.names, Function.comp_def]
  refine ⟨_, wellFormed_ofEntries wellFormed, fun name => ?_, fun name value found => ?_⟩
  · rw [Mapping.ofEntries, Mapping.mem_names_overwrite, named, Mapping.names_nil,
      or_iff_right List.not_mem_nil]
  · rcases Mapping.mem_overwrite (Mapping.mem_of_get? found) with impossible | member
    · cases impossible
    · obtain ⟨other, -, same⟩ := List.mem_map.mp member
      cases same
      rfl

end Json

end Mson
