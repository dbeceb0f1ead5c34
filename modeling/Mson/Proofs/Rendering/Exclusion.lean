import Mson.Proofs.Example.Contribution
import Mson.Proofs.Rendering.Object
import Mson.Proofs.Rendering.Success

/-!
# Exclusive options and their examples

For every option set among the members of an object the schema says that not all names of its options
are there together, while the example shows the first option. Each side is put together member by
member: the names of a group are those that its options declare, and an entry of the example is
there if one of the members shows it. So the example respects a group exactly if the group has a name
that no member shows (`example_respects_group_iff`), which a group with one option or none need
not have.
-/
namespace Mson

variable {types : SymbolTable}

/-! ## The names of a group -/

/-- Whether an option has a property of the given name. -/
def Declares (types : SymbolTable) (option : Element) (name : String) : Prop :=
  ∃ schema, ShowsSchema types option schema ∧ name ∈ Mapping.names (Schema.propertiesOf schema)

/-- An excluded group of names comes from an option set, whose options declare them. -/
theorem Schema.mem_exclusive {steps depth : Nat} {member : Element} {added : ObjectParts}
    {names : List String}
    (success : contribution (renderSchemaWithin steps types depth) member = .ok added)
    (among : names ∈ added.exclusive) :
    member.isOptionSet = true ∧
      ∀ name, name ∈ names ↔ ∃ option ∈ member.children, Declares types option name := by
  cases isContribution success with
  | optionSet isOptionSet rendered =>
    rw [List.mem_singleton.mp among]
    obtain ⟨forth, back⟩ := exists_of_mapM_eq_ok rendered
    refine ⟨isOptionSet, fun name => ?_⟩
    rw [List.mem_eraseDups, mem_names_flatMap]
    constructor
    · rintro ⟨schema, isOption, named⟩
      obtain ⟨option, child, shown⟩ := back schema isOption
      exact ⟨option, child, schema, ⟨steps, depth, shown⟩, named⟩
    · rintro ⟨option, child, schema, shown, named⟩
      obtain ⟨other, isOption, rendered⟩ := forth option child
      have same : schema = other := shown.unique ⟨steps, depth, rendered⟩
      exact ⟨other, isOption, same ▸ named⟩
  | member _ _ _ => cases among
  | other _ _ => cases among

/-! ## The entries of an example -/

/-- Whether a member shows an entry of the given name in an example. -/
inductive Shows (types : SymbolTable) (member : Element) (name : String) : Prop
  | option {option : Element} {entries : Mapping Value} (isOptionSet : member.isOptionSet = true)
      (first : member.children.head? = some option)
      (shown : ObjectExample types option.children entries) (named : name ∈ Mapping.names entries)
  | value {value : Element} {example_ : Value} (slot : member.slot? = some name)
      (held : member.memberValue? = some value) (shown : ShowsExample types value example_)
      (visible : example_.isNull = false)

/-- A member contributes the entries that it shows. -/
theorem Example.mem_names_contribution_iff {steps depth : Nat} {member : Element}
    {added : Mapping Value} {name : String}
    (success : contribution (renderExampleWithin steps types depth)
      (renderMembersWithin steps types depth) member = .ok added) :
    name ∈ Mapping.names added ↔ Shows types member name := by
  cases isContribution success with
  | firstOption isOptionSet first shown =>
    constructor
    · exact fun named => .option isOptionSet first ⟨steps, depth, shown⟩ named
    · rintro (⟨_, same, object, named⟩ | ⟨slot, _, _, _⟩)
      · cases first.symm.trans same
        exact object.unique ⟨steps, depth, shown⟩ ▸ named
      · exact absurd isOptionSet (not_isOptionSet_of_slot slot)
  | noOption isOptionSet none =>
    refine iff_of_false List.not_mem_nil ?_
    rintro (⟨_, first, _, _⟩ | ⟨slot, _, _, _⟩)
    · rw [none] at first
      cases first
    · exact absurd isOptionSet (not_isOptionSet_of_slot slot)
  | value slot held shown visible =>
    constructor
    · intro named
      rw [List.mem_singleton.mp named]
      exact .value slot held ⟨steps, depth, shown⟩ visible
    · rintro (⟨isOptionSet, _, _, _⟩ | ⟨same, _, _, _⟩)
      · exact absurd isOptionSet (not_isOptionSet_of_slot slot)
      · cases slot.symm.trans same
        exact List.mem_singleton_self _
  | hidden slot held shown isNull =>
    refine iff_of_false List.not_mem_nil ?_
    rintro (⟨isOptionSet, _, _, _⟩ | ⟨_, same, other, visible⟩)
    · exact absurd isOptionSet (not_isOptionSet_of_slot slot)
    · cases held.symm.trans same
      rw [other.unique ⟨steps, depth, shown⟩, isNull] at visible
      cases visible
  | incomplete noGroup lacks =>
    refine iff_of_false List.not_mem_nil ?_
    rintro (⟨isOptionSet, _, _, _⟩ | ⟨slot, held, _, _⟩)
    · exact noGroup isOptionSet
    · exact lacks _ _ slot held

/-- The entries of an example are the contributions of its expanded members. -/
theorem ObjectExample.exists_contributions {members : List Element} {entries : Mapping Value}
    (object : ObjectExample types members entries) :
    ∃ steps depth expanded added, expandWithin types steps members = some expanded ∧
      expanded.mapM (Example.contribution (renderExampleWithin steps types depth)
        (renderMembersWithin steps types depth)) = .ok added ∧
      entries = Mapping.overwrite [] added.flatten := by
  obtain ⟨steps, depth, success⟩ := object
  cases depth with
  | zero => rw [renderMembersWithin] at success; cases success
  | succ depth => exact ⟨steps, depth, renderMembersWithin_eq_ok_iff.mp success⟩

/-- An example has the entries that its expanded members show. -/
theorem ObjectExample.mem_names_iff {members : List Element} {entries : Mapping Value}
    (object : ObjectExample types members entries) :
    ∃ steps expanded, expandWithin types steps members = some expanded ∧
      ∀ name, name ∈ Mapping.names entries ↔ ∃ member ∈ expanded, Shows types member name := by
  obtain ⟨steps, depth, expanded, added, expands, contributed, rfl⟩ := object.exists_contributions
  obtain ⟨forth, back⟩ := exists_of_mapM_eq_ok contributed
  refine ⟨steps, expanded, expands, fun name => ?_⟩
  rw [Mapping.mem_names_overwrite, Mapping.names_nil, or_iff_right List.not_mem_nil,
    ← List.flatMap_id, Schema.mem_names_flatMap]
  constructor
  · rintro ⟨own, isPart, named⟩
    obtain ⟨member, source, success⟩ := back own isPart
    exact ⟨member, source, (Example.mem_names_contribution_iff success).mp named⟩
  · rintro ⟨member, source, shows_⟩
    obtain ⟨own, isPart, success⟩ := forth member source
    exact ⟨own, isPart, (Example.mem_names_contribution_iff success).mpr shows_⟩

/-! ## Respected groups -/

/-- The clauses of an object are those of its option sets. -/
theorem ObjectSchema.exists_group {members : List Element} {schema : Schema} {clauses : List Value}
    (object : ObjectSchema types members schema)
    (found : Mapping.get? schema "allOf" = some (.array clauses)) :
    ∃ steps expanded, expandWithin types steps members = some expanded ∧
      ∀ clause ∈ clauses, ∃ group ∈ expanded, ∃ names, group.isOptionSet = true ∧
        clause = Schema.exclusionClause names ∧
        ∀ name, name ∈ names ↔ ∃ option ∈ group.children, Declares types option name := by
  obtain ⟨steps, depth, success⟩ := object
  obtain ⟨expanded, added, expands, contributed, rfl⟩ := Schema.ofMembers_eq_ok_iff.mp success
  refine ⟨steps, expanded, expands, fun clause among => ?_⟩
  have listed : clauses = (added.flatMap Schema.ObjectParts.exclusive).map Schema.exclusionClause := by
    rw [Schema.ObjectParts.get?_toSchema, Schema.exclusive_foldl_append, List.nil_append] at found
    simp only [String.reduceEq, if_false, true_and, false_and] at found
    split at found
    · cases found
      rfl
    · cases found
  rw [listed, List.mem_map] at among
  obtain ⟨names, excluded, rfl⟩ := among
  obtain ⟨parts, isPart, ofParts⟩ := List.mem_flatMap.mp excluded
  obtain ⟨group, source, success⟩ := (exists_of_mapM_eq_ok contributed).2 parts isPart
  obtain ⟨isOptionSet, named⟩ := Schema.mem_exclusive success ofParts
  exact ⟨group, source, names, isOptionSet, rfl, named⟩

/-- What an example shows of the groups that the clauses of its schema exclude. -/
structure GroupsShown (types : SymbolTable) (expanded : List Element) (clauses : List Value)
    (entries : Mapping Value) : Prop where
  shown : ∀ name, name ∈ Mapping.names entries ↔ ∃ member ∈ expanded, Shows types member name
  /-- A clause excludes the names that the options of a group declare, and the example lacks one of
  them exactly if there is one that no member shows. -/
  excluded : ∀ clause ∈ clauses, ∃ group ∈ expanded, ∃ names, group.isOptionSet = true ∧
    clause = Schema.exclusionClause names ∧
    (∀ name, name ∈ names ↔ ∃ option ∈ group.children, Declares types option name) ∧
    ((∃ name ∈ names, name ∉ Mapping.names entries) ↔
      ∃ option ∈ group.children, ∃ name, Declares types option name ∧
        ∀ member ∈ expanded, ¬ Shows types member name)

/-- Where a schema has exclusive groups, the element is an object, the groups are the option sets
among its expanded members, and its example respects those that declare a name which no member
shows. -/
theorem example_respects_group_iff {element : Element} :
    (∀ steps depth,
      (types.Parsed → element.Parsed → Settled (renderSchemaWithin steps types depth element) →
        ∃ schema, renderSchemaWithin steps types depth element = .ok schema) ∧
      (Settled (renderExampleWithin steps types depth element) →
        ∃ example_, renderExampleWithin steps types depth element = .ok example_)) ∧
    ∀ schema example_ clauses, ShowsSchema types element schema →
      ShowsExample types element example_ →
      Mapping.get? schema "allOf" = some (.array clauses) →
        ∃ members steps expanded entries, RendersMembers types element members ∧
          expandWithin types steps members = some expanded ∧ example_ = .object entries ∧
          GroupsShown types expanded clauses entries := by
  refine ⟨fun steps depth => ⟨fun parsedTypes parsed => exists_schema_of_settled parsedTypes parsed,
    exists_example_of_settled⟩, fun schema example_ clauses shownSchema shownExample found => ?_⟩
  obtain ⟨members, leads⟩ := exists_rendersMembers_of_allOf shownSchema found
  obtain ⟨inner, object, kept⟩ := leads.objectSchema shownSchema
  obtain ⟨entries, shown, rfl⟩ := leads.objectExample shownExample
  rw [kept "allOf" (by decide)] at found
  obtain ⟨steps, expanded, expands, groups⟩ := object.exists_group found
  obtain ⟨more, others, expandsToo, named⟩ := shown.mem_names_iff
  have same : others = expanded := expandWithin_unique expandsToo expands
  subst same
  refine ⟨members, steps, others, entries, leads, expands, rfl, named, fun clause among => ?_⟩
  obtain ⟨group, isMember, names, isOptionSet, made, declared⟩ := groups clause among
  refine ⟨group, isMember, names, isOptionSet, made, declared, ?_⟩
  constructor
  · rintro ⟨name, excluded, lacking⟩
    obtain ⟨option, child, declares⟩ := (declared name).mp excluded
    exact ⟨option, child, name, declares, fun member among shows_ =>
      lacking ((named name).mpr ⟨member, among, shows_⟩)⟩
  · rintro ⟨option, child, name, declares, hidden⟩
    refine ⟨name, (declared name).mpr ⟨option, child, declares⟩, fun present => ?_⟩
    obtain ⟨member, among, shows_⟩ := (named name).mp present
    exact hidden member among shows_

namespace OptionGroup

def option (key : String) : Element :=
  ⟨"option", .children [⟨"member", .member ⟨"string", .literal (.string key), [], []⟩
    (some ⟨"string", .absent, [], []⟩), [], []⟩], [], []⟩

/-- An object whose properties exclude one another. -/
def object (keys : List String) : Element :=
  ⟨"object", .children [⟨"select", .children (keys.map option), [], []⟩], [], []⟩

def node (keys : List String) : Json :=
  .object [("element", .string "object"), ("content", .array
    [.object [("element", .string "select"), ("content", .array (keys.map fun key =>
      .object [("element", .string "option"), ("content", .array
        [.object [("element", .string "member"), ("content", .object
          [("key", .object [("element", .string "string"), ("content", .string key)]),
            ("value", .object [("element", .string "string")])])]])]))]])]

def twoOptions : Schema :=
  [("type", .string "object"),
    ("properties", .object [("a", .object [("type", .string "string")]),
      ("b", .object [("type", .string "string")])]),
    ("allOf", .array [Schema.exclusionClause ["a", "b"]])]

/-- Of two options the first one is shown. -/
theorem example_respects_group_two :
    ∃ entries clauses members steps expanded,
      renderSchema [] (object ["a", "b"]) = .ok twoOptions ∧
      renderExample [] (object ["a", "b"]) = .ok (.object entries) ∧
      Mapping.get? twoOptions "allOf" = some (.array clauses) ∧
      RendersMembers [] (object ["a", "b"]) members ∧
      expandWithin [] steps members = some expanded ∧ GroupsShown [] expanded clauses entries := by
  have rendered : renderSchema [] (object ["a", "b"]) = .ok twoOptions := rfl
  have shown : renderExample [] (object ["a", "b"]) =
      .ok (.object [("a", .string "Hello, world!")]) := rfl
  obtain ⟨members, steps, expanded, entries, leads, expands, same, groups⟩ :=
    example_respects_group_iff.2 _ _ _ ⟨_, _, rendered⟩ ⟨_, _, shown⟩ rfl
  cases same
  exact ⟨_, _, members, steps, expanded, rendered, shown, rfl, leads, expands, groups⟩

/-- A group with one option excludes just what the example shows, and a group without options
excludes everything. -/
theorem example_violates_single_option :
    (object ["a"]).Parsed ∧ (∃ schema entries, renderSchema [] (object ["a"]) = .ok schema ∧
      renderExample [] (object ["a"]) = .ok (.object entries) ∧
      Mapping.get? schema "allOf" = some (.array [Schema.exclusionClause ["a"]]) ∧
      ∀ name ∈ ["a"], name ∈ Mapping.names entries) ∧
    (object []).Parsed ∧ ∃ schema entries, renderSchema [] (object []) = .ok schema ∧
      renderExample [] (object []) = .ok (.object entries) ∧
      Mapping.get? schema "allOf" = some (.array [Schema.exclusionClause []]) := by
  refine ⟨⟨node ["a"], by decide, rfl⟩, ⟨_, [("a", .string "Hello, world!")], rfl, rfl, rfl, ?_⟩,
    ⟨node [], by decide, rfl⟩, _, [], rfl, rfl, rfl⟩
  decide

end OptionGroup

end Mson
