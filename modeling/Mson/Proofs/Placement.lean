import Mathlib.Data.List.Induction

/-!
# Placing by key

Two kinds of collections are written to in the same way: a mapping by the names of its entries, the
children of an element by the keys of its members. What is placed takes the place of the item with its
key; without a key, or where no item has it, it goes to the end. `Places` says this of a function, and
the laws hold of every such function. The main one is that items can be placed among others first and
then, as a whole, somewhere else (`Places.foldl_foldl`): for each key the last item counts and the place
of the first is kept, whichever are placed first.
-/
namespace Mson

variable {α κ : Type} {key : α → Option κ} {place : List α → α → List α}

/-- Whether a function places items by their keys. -/
structure Places (key : α → Option κ) (place : List α → α → List α) : Prop where
  nil (item : α) : place [] item = [item]
  replace {item first : α} {name : κ} (named : key item = some name) (same : key first = some name)
    (rest : List α) : place (first :: rest) item = item :: rest
  pass {item first : α} (other : ∀ name, key item = some name → key first ≠ some name)
    (rest : List α) : place (first :: rest) item = first :: place rest item

namespace Places

variable {item other : α} {name : κ} {items later : List α}

theorem same_or_other (key : α → Option κ) (item first : α) :
    (∃ name, key item = some name ∧ key first = some name) ∨
      ∀ name, key item = some name → key first ≠ some name := by
  by_cases shared : ∃ name, key item = some name ∧ key first = some name
  · exact .inl shared
  · exact .inr fun name named same => shared ⟨name, named, same⟩

theorem mem_keys_cons_iff :
    name ∈ (item :: items).filterMap key ↔ key item = some name ∨ name ∈ items.filterMap key := by
  simp only [List.mem_filterMap, List.mem_cons, exists_eq_or_imp]

theorem nodup_keys_of_cons (distinct : ((item :: items).filterMap key).Nodup) :
    (items.filterMap key).Nodup :=
  distinct.sublist ((List.sublist_cons_self item items).filterMap key)

theorem not_mem_keys_of_cons (distinct : ((item :: items).filterMap key).Nodup)
    (named : key item = some name) : name ∉ items.filterMap key := by
  rw [List.filterMap_cons_some named] at distinct
  exact (List.nodup_cons.mp distinct).1

section OneItem

variable (places : Places key place)
include places

theorem mem_keys_place_iff (item : α) :
    name ∈ (place items item).filterMap key ↔
      name ∈ items.filterMap key ∨ key item = some name := by
  induction items with
  | nil => simp [places.nil]
  | cons first rest ih =>
    rcases same_or_other key item first with ⟨shared, named, same⟩ | other
    · rw [places.replace named same, mem_keys_cons_iff, mem_keys_cons_iff, named, same,
        or_right_comm, or_self]
    · rw [places.pass other, mem_keys_cons_iff, mem_keys_cons_iff, ih, or_assoc]

theorem nodup_keys_place (item : α) (distinct : (items.filterMap key).Nodup) :
    ((place items item).filterMap key).Nodup := by
  induction items with
  | nil =>
    rw [places.nil, List.filterMap_cons]
    split <;> simp
  | cons first rest ih =>
    have distinctRest := nodup_keys_of_cons distinct
    rcases same_or_other key item first with ⟨shared, named, same⟩ | other
    · rw [List.filterMap_cons_some same] at distinct
      rwa [places.replace named same, List.filterMap_cons_some named]
    · rw [places.pass other]
      cases ofFirst : key first with
      | none =>
        rw [List.filterMap_cons_none ofFirst]
        exact ih distinctRest
      | some firstName =>
        rw [List.filterMap_cons_some ofFirst, List.nodup_cons]
        refine ⟨fun among => ?_, ih distinctRest⟩
        rcases (places.mem_keys_place_iff item).mp among with later | named
        · exact not_mem_keys_of_cons distinct ofFirst later
        · exact other firstName named ofFirst

/-- What has no key, or one that is not there, goes to the end. -/
theorem eq_append_of_new (new : ∀ name, key item = some name → name ∉ items.filterMap key) :
    place items item = items ++ [item] := by
  induction items with
  | nil => exact places.nil item
  | cons first rest ih =>
    have other : ∀ name, key item = some name → key first ≠ some name := fun name named same =>
      new name named (mem_keys_cons_iff.mpr (.inl same))
    have newLater : ∀ name, key item = some name → name ∉ rest.filterMap key :=
      fun name named among => new name named (mem_keys_cons_iff.mpr (.inr among))
    rw [places.pass other, ih newLater, List.cons_append]

/-- What takes the place of another item has its key. -/
theorem keys_place_of_mem (named : key item = some name) (present : name ∈ items.filterMap key) :
    (place items item).filterMap key = items.filterMap key := by
  induction items with
  | nil => cases present
  | cons first rest ih =>
    by_cases same : key first = some name
    · rw [places.replace named same, List.filterMap_cons_some named, List.filterMap_cons_some same]
    · have other : ∀ found, key item = some found → key first ≠ some found := by
        intro found isNamed
        rw [named] at isNamed
        cases isNamed
        exact same
      have later := (mem_keys_cons_iff.mp present).resolve_left same
      rw [places.pass other, List.filterMap_cons, List.filterMap_cons, ih later]

/-- What has no key is not replaced. -/
theorem keyless_place (item : α) :
    (place items item).filter (fun found => (key found).isNone) =
      (items ++ [item]).filter fun found => (key found).isNone := by
  induction items with
  | nil => rw [places.nil, List.nil_append]
  | cons first rest ih =>
    rcases same_or_other key item first with ⟨name, named, same⟩ | other
    · rw [places.replace named same]
      simp [named, same]
    · rw [places.pass other, List.cons_append, List.filter_cons, List.filter_cons, ih]

theorem place_place_self (named : key item = some name) (same : key other = some name) :
    place (place items other) item = place items item := by
  induction items with
  | nil => rw [places.nil, places.nil, places.replace named same]
  | cons first rest ih =>
    by_cases here : key first = some name
    · rw [places.replace same here, places.replace named same, places.replace named here]
    · have passes : ∀ {placed : α}, key placed = some name →
          ∀ found, key placed = some found → key first ≠ some found := by
        intro placed isNamed found isFound
        rw [isNamed] at isFound
        cases isFound
        exact here
      rw [places.pass (passes same), places.pass (passes named), places.pass (passes named), ih]

/-- An item that is there keeps its place, so another one may be placed before or after it is
replaced. -/
theorem place_comm (present : name ∈ items.filterMap key) (named : key item = some name)
    (different : key other ≠ some name) :
    place (place items other) item = place (place items item) other := by
  have itemPasses : ∀ found, key item = some found → key other ≠ some found := by
    intro found isFound
    rw [named] at isFound
    cases isFound
    exact different
  have otherPasses : ∀ found, key other = some found → key item ≠ some found :=
    fun found isFound same => itemPasses found same isFound
  induction items with
  | nil => cases present
  | cons first rest ih =>
    rcases same_or_other key item first with ⟨shared, isShared, here⟩ | itemLater
    · have otherLater : ∀ found, key other = some found → key first ≠ some found := by
        intro found isFound
        rw [here, ← isShared]
        exact otherPasses found isFound
      rw [places.pass otherLater, places.replace isShared here, places.replace isShared here,
        places.pass otherPasses]
    · have inRest : name ∈ rest.filterMap key :=
        (mem_keys_cons_iff.mp present).resolve_left (itemLater name named)
      rcases same_or_other key other first with ⟨shared, isShared, here⟩ | otherLater
      · rw [places.replace isShared here, places.pass itemPasses, places.pass itemLater,
          places.replace isShared here]
      · rw [places.pass otherLater, places.pass itemLater, places.pass itemLater,
          places.pass otherLater, ih inRest]

end OneItem

section ManyItems

variable (places : Places key place)
include places

theorem nodup_keys_foldl (later : List α) (distinct : (items.filterMap key).Nodup) :
    ((later.foldl place items).filterMap key).Nodup := by
  induction later generalizing items with
  | nil => exact distinct
  | cons item rest ih => exact ih (places.nodup_keys_place item distinct)

theorem keyless_foldl (later : List α) :
    (later.foldl place items).filter (fun found => (key found).isNone) =
      (items ++ later).filter fun found => (key found).isNone := by
  induction later generalizing items with
  | nil => rw [List.foldl_nil, List.append_nil]
  | cons item rest ih =>
    rw [List.foldl_cons, ih, List.filter_append, places.keyless_place, ← List.filter_append,
      List.append_assoc, List.singleton_append]

/-- The keys of items that are placed one after the other stand where they come first. -/
theorem keys_foldl [BEq κ] [LawfulBEq κ] (later : List α) :
    (later.foldl place []).filterMap key = (later.filterMap key).eraseDups := by
  induction later using List.reverseRecOn with
  | nil => rfl
  | append_singleton earlier item ih =>
    have placed : ∀ name, name ∈ (earlier.foldl place []).filterMap key ↔
        name ∈ earlier.filterMap key := fun name => by rw [ih, List.mem_eraseDups]
    rw [List.foldl_append, List.foldl_cons, List.foldl_nil, List.filterMap_append,
      List.eraseDups_append, ← ih]
    by_cases present : ∃ name, key item = some name ∧ name ∈ earlier.filterMap key
    · obtain ⟨name, named, among⟩ := present
      rw [places.keys_place_of_mem named ((placed name).mpr among)]
      simp [named, List.removeAll, among]
    · have new : ∀ name, key item = some name → name ∉ earlier.filterMap key :=
        fun name named among => present ⟨name, named, among⟩
      rw [places.eq_append_of_new fun name named among => new name named ((placed name).mp among),
        List.filterMap_append]
      cases named : key item with
      | none => simp [named]
      | some name => simp [named, List.removeAll, new name named, List.eraseDups_cons]

/-- Items without a key in common stay as they are when they are placed one after the other. -/
theorem foldl_eq_append (distinct : ((items ++ later).filterMap key).Nodup) :
    later.foldl place items = items ++ later := by
  induction later generalizing items with
  | nil => rw [List.foldl_nil, List.append_nil]
  | cons item rest ih =>
    have new : ∀ name, key item = some name → name ∉ items.filterMap key := by
      intro name named among
      rw [List.filterMap_append, List.filterMap_cons_some named] at distinct
      exact (List.nodup_append.mp distinct).2.2 name among name List.mem_cons_self rfl
    have whole : items ++ item :: rest = (items ++ [item]) ++ rest := by simp
    rw [whole] at distinct ⊢
    rw [List.foldl_cons, places.eq_append_of_new new, ih distinct]

theorem foldl_comm (present : name ∈ items.filterMap key) (named : key item = some name)
    (absent : name ∉ later.filterMap key) :
    place (later.foldl place items) item = later.foldl place (place items item) := by
  induction later generalizing items with
  | nil => rfl
  | cons other rest ih =>
    rw [mem_keys_cons_iff, not_or] at absent
    have kept : name ∈ (place items other).filterMap key :=
      (places.mem_keys_place_iff other).mpr (.inl present)
    rw [List.foldl_cons, List.foldl_cons, ih kept absent.2,
      places.place_comm present named absent.1]

theorem foldl_place (distinct : (items.filterMap key).Nodup) (start : List α) :
    (place items item).foldl place start = place (items.foldl place start) item := by
  induction items generalizing start with
  | nil =>
    rw [places.nil]
    rfl
  | cons first rest ih =>
    have distinctRest := nodup_keys_of_cons distinct
    rcases same_or_other key item first with ⟨name, named, same⟩ | other
    · have present : name ∈ (place start first).filterMap key :=
        (places.mem_keys_place_iff first).mpr (.inr same)
      have absent := not_mem_keys_of_cons distinct same
      rw [places.replace named same, List.foldl_cons, List.foldl_cons,
        places.foldl_comm present named absent, places.place_place_self named same]
    · rw [places.pass other, List.foldl_cons, List.foldl_cons, ih distinctRest]

/-- Placing items that have been placed among others is placing the others and then the items. -/
theorem foldl_foldl (distinct : (items.filterMap key).Nodup) (start : List α) :
    (later.foldl place items).foldl place start = later.foldl place (items.foldl place start) := by
  induction later generalizing items with
  | nil => rfl
  | cons item rest ih =>
    rw [List.foldl_cons, List.foldl_cons, ih (places.nodup_keys_place item distinct),
      places.foldl_place distinct]

end ManyItems

end Places

end Mson
