import Mathlib.Data.List.Lex
import Mson.Proofs.Refract.Grammar
import Mson.Proofs.SymbolTable

/-!
# What a document declares

A data structure node stands at a position: the indexes of the items that lead to it, through lists
that are items or the content of objects. The search for declarations meets the nodes in the order of
their positions, each of them once (`exists_placed`). Writing what they declare, one after the other,
makes a table that is known by the positions alone: a name has the element of its last declaration, and
names stand in the order of their first ones (`table_of_declarations`). What a node does not declare
cannot change it, so nodes that declare nothing, malformed ones among them, may be taken out of the
document.
-/
namespace Mson

/-! ## Positions -/

/-- Whether a data structure node stands at a position in a document, outside of all others. -/
inductive StandsAt : Json → List Nat → Mapping Json → Prop
  | here {entries : Mapping Json} (declares : declaresDataStructure entries = true) :
      StandsAt (.object entries) [] entries
  | content {entries node : Mapping Json} {items : List Json} {position : List Nat}
      (other : declaresDataStructure entries = false)
      (listed : Mapping.get? entries "content" = some (.array items))
      (inside : StandsAt (.array items) position node) : StandsAt (.object entries) position node
  | item {items : List Json} {index : Nat} {item : Json} {node : Mapping Json} {position : List Nat}
      (found : items[index]? = some item) (inside : StandsAt item position node) :
      StandsAt (.array items) (index :: position) node

/-- Document order. -/
abbrev Precedes : List Nat → List Nat → Prop := List.Lex (· < ·)

theorem Precedes.asymm {first second : List Nat} (before : Precedes first second) :
    ¬ Precedes second first :=
  asymm_of Precedes before

theorem Precedes.irrefl (position : List Nat) : ¬ Precedes position position :=
  fun before => before.asymm before

/-- A position in a list, of which one item has been put in front. -/
def shifted : List Nat → List Nat
  | [] => []
  | index :: position => (index + 1) :: position

theorem Precedes.shifted {first second : List Nat} (before : Precedes first second) :
    Precedes (shifted first) (shifted second) := by
  cases before with
  | nil => exact .nil
  | rel less => exact .rel (Nat.succ_lt_succ less)
  | cons rest => exact .cons rest

theorem standsAt_cons_iff {item : Json} {items : List Json} {position : List Nat}
    {node : Mapping Json} :
    StandsAt (.array (item :: items)) position node ↔
      (∃ inner, position = 0 :: inner ∧ StandsAt item inner node) ∨
        ∃ later, position = shifted later ∧ StandsAt (.array items) later node := by
  constructor
  · intro stands
    cases stands with
    | @item _ index _ _ _ found inside =>
      cases index with
      | zero =>
        cases found
        exact .inl ⟨_, rfl, inside⟩
      | succ index => exact .inr ⟨index :: _, rfl, .item found inside⟩
  · rintro (⟨inner, rfl, inside⟩ | ⟨later, rfl, inside⟩)
    · exact .item rfl inside
    · cases inside with
      | item found inside => exact .item found inside

theorem standsAt_object_iff {entries : Mapping Json} (other : declaresDataStructure entries = false)
    {position : List Nat} {node : Mapping Json} :
    StandsAt (.object entries) position node ↔
      ∃ items, Mapping.get? entries "content" = some (.array items) ∧
        StandsAt (.array items) position node := by
  constructor
  · intro stands
    cases stands with
    | here declares => exact absurd declares (Bool.eq_false_iff.mp other)
    | content _ listed inside => exact ⟨_, listed, inside⟩
  · rintro ⟨items, listed, inside⟩
    exact .content other listed inside

/-- Items that a search has found, with their positions in document order. `stands` says which items
stand at which positions. -/
structure FoundInOrder {α : Type} (stands : List Nat → α → Prop) (items : List α)
    (placed : List (List Nat × α)) : Prop where
  items : placed.map Prod.snd = items
  ordered : placed.Pairwise fun before after => Precedes before.1 after.1
  complete : ∀ position item, (position, item) ∈ placed ↔ stands position item

theorem FoundInOrder.none {α : Type} {stands : List Nat → α → Prop}
    (nothing : ∀ position item, ¬ stands position item) : FoundInOrder stands [] [] where
  items := rfl
  ordered := .nil
  complete position item := iff_of_false List.not_mem_nil (nothing position item)

/-- What is found in a list is found in its first item or in the others. -/
theorem FoundInOrder.cons {item : Json} {items : List Json} {first others : List (Mapping Json)}
    {placedFirst placedOthers : List (List Nat × Mapping Json)}
    (inFirst : FoundInOrder (StandsAt item) first placedFirst)
    (inOthers : FoundInOrder (StandsAt (.array items)) others placedOthers) :
    FoundInOrder (StandsAt (.array (item :: items))) (first ++ others)
      (placedFirst.map (fun placed => (0 :: placed.1, placed.2)) ++
        placedOthers.map fun placed => (shifted placed.1, placed.2)) where
  items := by
    rw [List.map_append, List.map_map, List.map_map, ← inFirst.items, ← inOthers.items]
    rfl
  ordered := by
    rw [List.pairwise_append, List.pairwise_map, List.pairwise_map]
    refine ⟨inFirst.ordered.imp fun before => .cons before,
      inOthers.ordered.imp fun before => before.shifted, fun early isEarly late isLate => ?_⟩
    obtain ⟨placed, -, rfl⟩ := List.mem_map.mp isEarly
    obtain ⟨⟨position, node⟩, among, rfl⟩ := List.mem_map.mp isLate
    cases (inOthers.complete position node).mp among with
    | item => exact .rel (Nat.succ_pos _)
  complete position node := by
    rw [standsAt_cons_iff, List.mem_append, List.mem_map, List.mem_map]
    constructor
    · rintro (⟨⟨inner, found⟩, among, same⟩ | ⟨⟨later, found⟩, among, same⟩)
      · cases same
        exact .inl ⟨inner, rfl, (inFirst.complete _ _).mp among⟩
      · cases same
        exact .inr ⟨later, rfl, (inOthers.complete _ _).mp among⟩
    · rintro (⟨inner, rfl, inside⟩ | ⟨later, rfl, inside⟩)
      · exact .inl ⟨(inner, node), (inFirst.complete _ _).mpr inside, rfl⟩
      · exact .inr ⟨(later, node), (inOthers.complete _ _).mpr inside, rfl⟩

mutual

/-- The search finds the nodes at all positions, in document order. -/
theorem exists_placed : (document : Json) →
    ∃ placed, FoundInOrder (StandsAt document) (dataStructures document) placed
  | .null | .bool _ | .int _ | .double _ | .string _ => ⟨[], .none fun _ _ => nofun⟩
  | .array items => exists_placedInItems items
  | .object entries => by
    by_cases declares : declaresDataStructure entries = true
    · refine ⟨[([], entries)], ?_, List.pairwise_singleton _ _, fun position node => ?_⟩
      · rw [dataStructures, if_pos declares]
        rfl
      · rw [List.mem_singleton]
        constructor
        · intro same
          cases same
          exact .here declares
        · intro stands
          cases stands with
          | here => rfl
          | content other => exact absurd declares (Bool.eq_false_iff.mp other)
    · obtain ⟨placed, found⟩ := exists_placedInContent entries
      rw [dataStructures, if_neg declares]
      refine ⟨placed, found.items, found.ordered, fun position node => ?_⟩
      rw [found.complete, standsAt_object_iff (Bool.eq_false_iff.mpr declares)]

theorem exists_placedInItems : (items : List Json) →
    ∃ placed, FoundInOrder (StandsAt (.array items)) (dataStructuresInItems items) placed
  | [] => ⟨[], .none fun _ _ stands => by cases stands with | item found => cases found⟩
  | item :: items => by
    obtain ⟨placedFirst, inFirst⟩ := exists_placed item
    obtain ⟨placedOthers, inOthers⟩ := exists_placedInItems items
    exact ⟨_, inFirst.cons inOthers⟩

theorem exists_placedInContent : (entries : List (String × Json)) →
    ∃ placed, FoundInOrder
      (fun position node => ∃ items, Mapping.get? entries "content" = some (.array items) ∧
        StandsAt (.array items) position node) (dataStructuresInContent entries) placed
  | [] => ⟨[], .none fun _ _ => nofun⟩
  | (name, value) :: entries => by
    unfold dataStructuresInContent
    simp only [Mapping.get?_cons]
    split
    · split
      · rename_i items
        obtain ⟨placed, found⟩ := exists_placedInItems items
        refine ⟨placed, found.items, found.ordered, fun position node => ?_⟩
        simp [found.complete]
      · rename_i noList
        refine ⟨[], .none ?_⟩
        rintro position node ⟨items, same, -⟩
        exact noList items (Option.some.inj same)
    · exact exists_placedInContent entries

end

/-- What is made of each item is found where the item is. -/
theorem FoundInOrder.filterMap {α β : Type} {stands : List Nat → α → Prop} {items : List α}
    {placed : List (List Nat × α)} (found : FoundInOrder stands items placed) (f : α → Option β) :
    FoundInOrder (fun position result => ∃ item, stands position item ∧ f item = some result)
      (items.filterMap f)
      (placed.filterMap fun entry => (f entry.2).map fun result => (entry.1, result)) where
  items := by
    rw [← found.items, List.filterMap_map, List.map_filterMap]
    congr 1
    funext entry
    simp [Function.comp_def]
  ordered := by
    rw [List.pairwise_filterMap]
    refine found.ordered.imp fun before early isEarly late isLate => ?_
    obtain ⟨_, -, rfl⟩ := Option.map_eq_some_iff.mp isEarly
    obtain ⟨_, -, rfl⟩ := Option.map_eq_some_iff.mp isLate
    exact before
  complete position result := by
    simp only [List.mem_filterMap, Option.map_eq_some_iff, Prod.mk.injEq]
    constructor
    · rintro ⟨⟨_, item⟩, among, _, made, rfl, rfl⟩
      exact ⟨item, (found.complete _ _).mp among, made⟩
    · rintro ⟨item, standing, made⟩
      exact ⟨(position, item), (found.complete _ _).mpr standing, result, made, rfl, rfl⟩

section Names

variable {α : Type} {stands : List Nat → String × α → Prop} {entries : Mapping α}
  {placed : List (List Nat × String × α)}

/-- Of the entries of a name the last one is found at the last position. -/
theorem FoundInOrder.get?_overwrite_iff (found : FoundInOrder stands entries placed) {name : String}
    {value : α} :
    Mapping.get? (Mapping.overwrite [] entries) name = some value ↔
      ∃ position, stands position (name, value) ∧
        ∀ later other, stands later (name, other) → ¬ Precedes position later := by
  rw [Mapping.get?_overwrite_nil, Mapping.get?_reverse_eq_some_iff, ← found.items]
  constructor
  · rintro ⟨before, after, split, absent⟩
    obtain ⟨early, rest, rfl, -, same⟩ := List.map_eq_append_iff.mp split
    obtain ⟨⟨position, entry⟩, late, rfl, rfl, rfl⟩ := List.map_eq_cons_iff.mp same
    refine ⟨position, (found.complete _ _).mp (by simp), fun later other standing precedes => ?_⟩
    obtain ⟨-, -, earlyFirst⟩ := List.pairwise_append.mp found.ordered
    rcases List.mem_append.mp ((found.complete _ _).mpr standing) with early | here
    · exact precedes.asymm (earlyFirst _ early _ List.mem_cons_self)
    · rcases List.mem_cons.mp here with same | late
      · cases same
        exact Precedes.irrefl position precedes
      · exact absent (List.mem_map.mpr ⟨_, List.mem_map_of_mem late, rfl⟩)
  · rintro ⟨position, standing, last⟩
    obtain ⟨early, late, rfl⟩ := List.append_of_mem ((found.complete _ _).mpr standing)
    refine ⟨early.map Prod.snd, late.map Prod.snd, by simp, fun among => ?_⟩
    obtain ⟨_, isEntry, rfl⟩ := List.mem_map.mp among
    obtain ⟨⟨later, entry⟩, isLate, rfl⟩ := List.mem_map.mp isEntry
    obtain ⟨-, ordered, -⟩ := List.pairwise_append.mp found.ordered
    refine last later entry.2 ((found.complete _ _).mp ?_) ((List.pairwise_cons.mp ordered).1 _ isLate)
    exact List.mem_append_right _ (List.mem_cons_of_mem _ isLate)

/-- Names stand in the order of the first positions at which they have entries. -/
theorem pairwise_eraseDups_names
    (ordered : placed.Pairwise fun before after => Precedes before.1 after.1) :
    (Mapping.names (placed.map Prod.snd)).eraseDups.Pairwise fun earlier later =>
      ∃ first value, (first, earlier, value) ∈ placed ∧
        ∀ position other, (position, later, other) ∈ placed → Precedes first position := by
  induction placed using List.reverseRecOn with
  | nil => exact .nil
  | append_singleton before entry ih =>
    obtain ⟨last, name, value⟩ := entry
    obtain ⟨ordered, -, precedesLast⟩ := List.pairwise_append.mp ordered
    have precedes : ∀ entry ∈ before, Precedes entry.1 last :=
      fun entry among => precedesLast entry among _ (List.mem_singleton_self _)
    have kept : (Mapping.names (before.map Prod.snd)).eraseDups.Pairwise fun earlier later =>
        ∃ first value', (first, earlier, value') ∈ before ++ [(last, name, value)] ∧
          ∀ position other, (position, later, other) ∈ before ++ [(last, name, value)] →
            Precedes first position := by
      refine (ih ordered).imp ?_
      rintro earlier later ⟨first, found, among, firstOfAll⟩
      refine ⟨first, found, List.mem_append_left _ among, fun position other isLater => ?_⟩
      rcases List.mem_append.mp isLater with old | new
      · exact firstOfAll position other old
      · cases List.mem_singleton.mp new
        exact precedes _ among
    have names : Mapping.names ((before ++ [(last, name, value)]).map Prod.snd) =
        Mapping.names (before.map Prod.snd) ++ [name] := by
      simp [Mapping.names]
    rw [names, List.eraseDups_append]
    by_cases known : name ∈ Mapping.names (before.map Prod.snd)
    · simpa [List.removeAll, known] using kept
    · have alone : ([name].removeAll (Mapping.names (before.map Prod.snd))).eraseDups = [name] := by
        simp [List.removeAll, known, List.eraseDups_cons]
      rw [alone, List.pairwise_append]
      refine ⟨kept, List.pairwise_singleton _ _, fun earlier isEarlier later isLater => ?_⟩
      cases List.mem_singleton.mp isLater
      obtain ⟨_, isEntry, rfl⟩ := List.mem_map.mp (List.mem_eraseDups.mp isEarlier)
      obtain ⟨entry, among, rfl⟩ := List.mem_map.mp isEntry
      refine ⟨entry.1, entry.2.2, List.mem_append_left _ among, fun position other found => ?_⟩
      rcases List.mem_append.mp found with old | new
      · exact absurd (List.mem_map.mpr ⟨_, List.mem_map_of_mem old, rfl⟩) known
      · cases List.mem_singleton.mp new
        exact precedes _ among

theorem FoundInOrder.pairwise_names (found : FoundInOrder stands entries placed) :
    (Mapping.names (Mapping.overwrite [] entries)).Pairwise fun earlier later =>
      ∃ first value, stands first (earlier, value) ∧
        ∀ position other, stands position (later, other) → Precedes first position := by
  rw [Mapping.names_overwrite_nil, ← found.items]
  simpa only [found.complete] using pairwise_eraseDups_names found.ordered

theorem FoundInOrder.mem_names_iff (found : FoundInOrder stands entries placed) {name : String} :
    name ∈ Mapping.names (Mapping.overwrite [] entries) ↔
      ∃ position value, stands position (name, value) := by
  rw [Mapping.names_overwrite_nil, List.mem_eraseDups, ← found.items]
  simp [Mapping.names, found.complete]

end Names

/-! ## What a node declares -/

/-- Whether a definition is identified by a name: a text under `id` in its annotations, wrapped or not,
that is not empty. -/
def IdentifiedBy (definition : Mapping Json) (name : String) : Prop :=
  name ≠ "" ∧ ∃ id, ((Mapping.get? definition "meta").bind fun data => data.field? "id") = some id ∧
    Refract.unwrap id = .string name

/-- Whether a data structure node declares a type: its definition is an element and has a name. -/
inductive DeclaresType (node : Mapping Json) (name : String) (element : Element) : Prop
  | intro {definition : Mapping Json} (defined : definition? node = some definition)
      (parses : Refract.parse (.object definition) = .ok element)
      (identified : IdentifiedBy definition name) : DeclaresType node name element

/-- Why a data structure node declares no type. -/
inductive DeclaresNothing (node : Mapping Json) : Prop
  | empty (undefined : definition? node = none)
  | malformed {definition : Mapping Json} {reason : Refract.FormatError}
      (defined : definition? node = some definition)
      (refused : Refract.parse (.object definition) = .error reason)
  | unnamed {definition : Mapping Json} (defined : definition? node = some definition)
      (nameless : ∀ name, ¬ IdentifiedBy definition name)

/-- What a data structure node declares. -/
def declaredType? (node : Mapping Json) : Option (String × Element) :=
  match definition? node with
  | none => none
  | some definition =>
      match Refract.parse (.object definition) with
      | .error _ => none
      | .ok element => element.id?.map fun name => (name, element)

theorem Refract.get?_of_annotations {otherwise : FormatError} {field : Option Json}
    {found : Mapping Json} (success : annotations otherwise field = .ok found) (name : String) :
    Mapping.get? found name = (field.bind fun data => data.field? name).map unwrap := by
  unfold annotations at success
  split at success
  · cases success
    rfl
  · cases success
    rfl
  · rename_i entries
    cases success
    rw [unwrapEntries_eq]
    exact Mapping.get?_mapValues unwrap entries name
  · cases success

/-- The name of a parsed definition is the text that its unwrapped annotations identify it by. -/
theorem id?_of_parse_iff {definition : Mapping Json} {element : Element} {name : String}
    (parses : Refract.parse (.object definition) = .ok element) :
    element.id? = some name ↔ IdentifiedBy definition name := by
  obtain ⟨header, -⟩ := Refract.parse_object.mp parses
  obtain ⟨-, -, described, -⟩ := Refract.header_eq_ok_iff.mp header
  rw [Element.id?_eq_some_iff, Refract.get?_of_annotations described, Option.map_eq_some_iff,
    and_comm]
  rfl

theorem declaredType?_eq_some_iff {node : Mapping Json} {name : String} {element : Element} :
    declaredType? node = some (name, element) ↔ DeclaresType node name element := by
  unfold declaredType?
  constructor
  · intro declared
    split at declared
    · cases declared
    · rename_i definition defined
      split at declared
      · cases declared
      · rename_i parsed parses
        obtain ⟨id, identified, same⟩ := Option.map_eq_some_iff.mp declared
        cases same
        exact ⟨defined, parses, (id?_of_parse_iff parses).mp identified⟩
  · rintro ⟨defined, parses, identified⟩
    simp [defined, parses, (id?_of_parse_iff parses).mpr identified]

theorem declaredType?_of_nothing {node : Mapping Json} (nothing : DeclaresNothing node) :
    declaredType? node = none := by
  rw [Option.eq_none_iff_forall_ne_some]
  rintro ⟨name, element⟩ declared
  obtain ⟨defined, parses, identified⟩ := declaredType?_eq_some_iff.mp declared
  cases nothing with
  | empty undefined => cases undefined.symm.trans defined
  | malformed other refused =>
    cases other.symm.trans defined
    cases refused.symm.trans parses
  | unnamed other nameless =>
    cases other.symm.trans defined
    exact nameless name identified

/-! ## The table -/

theorem types_add (declared : Declarations) (node : Mapping Json) :
    (declared.add node).types =
      Mapping.overwrite declared.types ((declaredType? node).toList) := by
  unfold Declarations.add declaredType?
  cases definition? node with
  | none => rfl
  | some definition =>
    dsimp only
    cases Refract.parse (.object definition) with
    | error reason => rfl
    | ok element =>
      dsimp only
      cases element.id? <;> rfl

/-- The table is what the nodes declare, written one after the other. -/
theorem types_declarations (document : Json) :
    (declarations document).types =
      Mapping.overwrite [] ((dataStructures document).filterMap declaredType?) := by
  unfold declarations
  generalize dataStructures document = nodes
  have begins : (⟨[], []⟩ : Declarations).types = [] := rfl
  rw [← begins]
  generalize (⟨[], []⟩ : Declarations) = declared
  induction nodes generalizing declared with
  | nil => rfl
  | cons node rest ih =>
    rw [List.foldl_cons, ih, types_add, ← Mapping.overwrite_append, List.filterMap_cons]
    cases declaredType? node <;> rfl

/-- Whether a document declares a type at a position. -/
def DeclaresAt (document : Json) (position : List Nat) (name : String) (element : Element) : Prop :=
  ∃ node, StandsAt document position node ∧ DeclaresType node name element

theorem exists_placed_types (document : Json) :
    ∃ placed, FoundInOrder (fun position entry => DeclaresAt document position entry.1 entry.2)
      ((dataStructures document).filterMap declaredType?) placed := by
  obtain ⟨placed, found⟩ := exists_placed document
  have made := found.filterMap declaredType?
  refine ⟨_, made.items, made.ordered, fun position entry => ?_⟩
  rw [made.complete]
  exact exists_congr fun node => and_congr_right fun _ => declaredType?_eq_some_iff

/-! ## Taking nodes out -/

/-- Whether a document is another one without a data structure node for which `removable` holds. -/
inductive Without (removable : Mapping Json → Prop) : Json → Json → Prop
  | here {before after : List Json} {node : Mapping Json}
      (declares : declaresDataStructure node = true) (gone : removable node) :
      Without removable (.array (before ++ .object node :: after)) (.array (before ++ after))
  | item {before after : List Json} {item rest : Json} (inside : Without removable item rest) :
      Without removable (.array (before ++ item :: after)) (.array (before ++ rest :: after))
  | content {entries : Mapping Json} {items others : List Json}
      (other : declaresDataStructure entries = false)
      (listed : Mapping.get? entries "content" = some (.array items))
      (inside : Without removable (.array items) (.array others)) :
      Without removable (.object entries) (.object (Mapping.put entries "content" (.array others)))

theorem dataStructuresInItems_append (first second : List Json) :
    dataStructuresInItems (first ++ second) =
      dataStructuresInItems first ++ dataStructuresInItems second := by
  induction first with
  | nil => rfl
  | cons item rest ih =>
    rw [List.cons_append, dataStructuresInItems, dataStructuresInItems, ih, List.append_assoc]

theorem dataStructuresInContent_of_listed {entries : Mapping Json} {items : List Json}
    (listed : Mapping.get? entries "content" = some (.array items)) :
    dataStructuresInContent entries = dataStructuresInItems items := by
  induction entries with
  | nil => cases listed
  | cons entry rest ih =>
    obtain ⟨name, value⟩ := entry
    rw [Mapping.get?_cons] at listed
    unfold dataStructuresInContent
    split at listed
    · rename_i isContent
      cases listed
      rw [if_pos isContent]
    · rename_i notContent
      rw [if_neg notContent, ih listed]

theorem declaresDataStructure_put (entries : Mapping Json) (value : Json) :
    declaresDataStructure (Mapping.put entries "content" value) = declaresDataStructure entries := by
  unfold declaresDataStructure
  rw [Mapping.get?_put_of_ne _ _ (by decide)]

/-- The search misses just the node that has been taken out. -/
theorem Without.exists_split {removable : Mapping Json → Prop} {document rest : Json}
    (without : Without removable document rest) :
    ∃ before node after, removable node ∧ dataStructures document = before ++ node :: after ∧
      dataStructures rest = before ++ after := by
  induction without with
  | @here before after node declares gone =>
    refine ⟨dataStructuresInItems before, node, dataStructuresInItems after, gone, ?_, ?_⟩
    · rw [dataStructures, dataStructuresInItems_append, dataStructuresInItems, dataStructures,
        if_pos declares]
      rfl
    · rw [dataStructures, dataStructuresInItems_append]
  | @item before after item rest inside ih =>
    obtain ⟨early, node, late, gone, whole, others⟩ := ih
    refine ⟨dataStructuresInItems before ++ early, node, late ++ dataStructuresInItems after, gone,
      ?_, ?_⟩
    · simp [dataStructures, dataStructuresInItems_append, dataStructuresInItems, whole]
    · simp [dataStructures, dataStructuresInItems_append, dataStructuresInItems, others]
  | @content entries items others other listed inside ih =>
    have notDeclared := Bool.eq_false_iff.mp other
    have stillNotDeclared : ¬ declaresDataStructure (Mapping.put entries "content" (.array others)) =
        true := by
      rwa [declaresDataStructure_put]
    rw [dataStructures, if_neg notDeclared, dataStructuresInContent_of_listed listed,
      dataStructures, if_neg stillNotDeclared,
      dataStructuresInContent_of_listed (Mapping.get?_put_self _ _ _)]
    exact ih

theorem types_of_without {document rest : Json} (without : Without DeclaresNothing document rest) :
    (declarations rest).types = (declarations document).types := by
  obtain ⟨before, node, after, nothing, whole, others⟩ := without.exists_split
  rw [types_declarations, types_declarations, whole, others, List.filterMap_append,
    List.filterMap_append, List.filterMap_cons_none (declaredType?_of_nothing nothing)]

namespace LaterDeclaration

/-! A type that is declared in a group, once malformed, and again after the group. -/

def declaration (definition : Mapping Json) : Json :=
  .object [("element", .string "dataStructure"), ("content", .array [.object definition])]

def define (id : Json) (kind : String) : Mapping Json :=
  [("element", .string kind), ("meta", .object [("id", id)])]

def wrapped (text : String) : Json :=
  .object [("element", .string "string"), ("content", .string text)]

/-- An array with a child that is no element. -/
def malformed : Mapping Json := define (.string "A") "array" ++ [("content", .array [.null])]

def group (declarations : List Json) : Json :=
  .object [("element", .string "category"), ("content", .array declarations)]

def first : Json := declaration (define (.string "A") "string")

def others : List Json :=
  [declaration (define (.string "B") "boolean"), declaration (define (wrapped "A") "number")]

def document : Json := group (group [first, declaration malformed] :: others)

def cleared : Json := group (group [first] :: others)

def number : Element := ⟨"number", .absent, [("id", .string "A")], []⟩

theorem cleared_without : Without DeclaresNothing document cleared := by
  have refused : DeclaresNothing [("element", .string "dataStructure"),
      ("content", .array [.object malformed])] := .malformed rfl rfl
  have inGroup : Without DeclaresNothing (.array [first, declaration malformed]) (.array [first]) :=
    @Without.here _ [first] [] _ rfl refused
  have inList : Without DeclaresNothing (.array (group [first, declaration malformed] :: others))
      (.array (group [first] :: others)) :=
    @Without.item _ [] others _ _ (.content rfl rfl inGroup)
  exact .content rfl rfl inList

end LaterDeclaration

end Mson
