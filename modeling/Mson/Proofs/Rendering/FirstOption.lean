import Mson.Proofs.Rendering.BaseChain
import Mson.Proofs.Rendering.Exclusion

/-!
# The first option by itself

The example of an option set is made of the children that its first option holds itself; of what kind
the option is does not matter. By itself an option is rendered by its kind: an element of a named type
inherits, a reference leads to its target. So the option set shows what its first option shows if that
is an object or an option, or derives from types without children, and in general exactly if the
option's own children make the same entries (`first_option_shown_iff`). An option without children of
its own shows nothing there, whatever its type has.
-/
namespace Mson

variable {types : SymbolTable}

/-! ## Examples made of members -/

/-- What the members make is the example of every element that is rendered as their object. -/
theorem RendersMembers.showsExample {element : Element} {members : List Element}
    {entries : Mapping Value} (leads : RendersMembers types element members)
    (object : ObjectExample types members entries) :
    ShowsExample types element (.object entries) := by
  induction leads with
  | object kind =>
    obtain ⟨steps, depth, success⟩ := object
    refine ⟨steps, depth + 1, ?_⟩
    rw [renderExampleWithin]
    rcases kind with kind | kind
    · simp only [kind, success]
      rfl
    · simp only [kind, success]
      rfl
  | optionSet kind =>
    obtain ⟨steps, depth, success⟩ := object
    refine ⟨steps, depth + 1, ?_⟩
    rw [renderExampleWithin]
    simp only [kind, success]
    rfl
  | target kind found _ ih =>
    obtain ⟨steps, depth, success⟩ := ih object
    refine ⟨steps, depth + 1, ?_⟩
    rw [renderExampleWithin]
    simp only [kind, found, success]
  | inherit kind found _ ih =>
    obtain ⟨steps, depth, success⟩ := ih object
    refine ⟨steps, depth + 1, ?_⟩
    rw [renderExampleWithin]
    simp only [kind, found, success]

/-- An element that is rendered as an object shows just what the members make. -/
theorem RendersMembers.showsExample_iff {element : Element} {members : List Element}
    (leads : RendersMembers types element members) {example_ : Value} :
    ShowsExample types element example_ ↔
      ∃ entries, ObjectExample types members entries ∧ example_ = .object entries := by
  constructor
  · exact leads.objectExample
  · rintro ⟨entries, object, rfl⟩
    exact leads.showsExample object

/-- An example names nothing twice. -/
theorem ObjectExample.namesDistinct {members : List Element} {entries : Mapping Value}
    (object : ObjectExample types members entries) : Mapping.NamesDistinct entries := by
  obtain ⟨_, _, _, added, -, -, rfl⟩ := object.exists_contributions
  have nothing : Mapping.NamesDistinct ([] : Mapping Value) := List.nodup_nil
  exact nothing.overwrite added.flatten

theorem objectExample_nil : ObjectExample types [] [] :=
  ⟨0, 1, rfl⟩

/-! ## Option sets -/

/-- Adding an option set to an empty object gives the entries of the first option's own children. -/
theorem renderMembersWithin_group {group first : Element} (isOptionSet : group.isOptionSet = true)
    (isFirst : group.children.head? = some first) (steps depth : Nat) :
    renderMembersWithin (steps + 1) types (depth + 1) [group] =
      renderMembersWithin (steps + 1) types depth first.children >>= fun entries =>
        .ok (Mapping.overwrite [] entries) := by
  obtain ⟨rest, options⟩ : ∃ rest, group.children = first :: rest := List.head?_eq_some_iff.mp isFirst
  have kind : group.kind = some .optionSet := of_decide_eq_true isOptionSet
  have noMixin : ¬ group.isReference = true := by simp [Element.isReference, kind]
  have expands : expandWithin types (steps + 1) [group] = some [group] := by
    rw [expandWithin_cons_other noMixin, expandWithin_nil]
    rfl
  rw [renderMembersWithin]
  simp only [expands, List.foldlM_cons, List.foldlM_nil, Example.addMember, isOptionSet, if_true,
    options]
  cases renderMembersWithin (steps + 1) types depth first.children <;> rfl

theorem objectExample_group_iff {group first : Element} (isOptionSet : group.isOptionSet = true)
    (isFirst : group.children.head? = some first) {entries : Mapping Value} :
    ObjectExample types [group] entries ↔ ObjectExample types first.children entries := by
  constructor
  · rintro ⟨steps, depth, success⟩
    have more := (grows_objectExample types [group]).ok_mono success (Nat.le_succ steps)
      (Nat.le_succ depth)
    simp only [Nat.succ_eq_add_one, renderMembersWithin_group isOptionSet isFirst] at more
    obtain ⟨own, shown, same⟩ := bind_eq_ok_iff.mp more
    have object : ObjectExample types first.children own := ⟨_, _, shown⟩
    rw [Mapping.overwrite_nil object.namesDistinct, Except.ok.injEq] at same
    exact same ▸ object
  · intro object
    have distinct := object.namesDistinct
    obtain ⟨steps, depth, success⟩ := object
    have more := (grows_objectExample types first.children).ok_mono success (Nat.le_succ steps)
      (Nat.le_refl depth)
    refine ⟨steps + 1, depth + 1, ?_⟩
    rw [renderMembersWithin_group isOptionSet isFirst]
    refine bind_eq_ok_iff.mpr ⟨entries, more, ?_⟩
    rw [Mapping.overwrite_nil distinct]

/-- What an object whose only member is an option set shows of the set's first child. -/
structure ShowsFirst (types : SymbolTable) (object first : Element) : Prop where
  own : ∀ example_, ShowsExample types object example_ ↔
    ∃ entries, ObjectExample types first.children entries ∧ example_ = .object entries
  agrees_iff : ∀ entries, ShowsExample types first (.object entries) →
    ((∀ example_, ShowsExample types object example_ ↔ ShowsExample types first example_) ↔
      ObjectExample types first.children entries)
  direct : first.kind = some .object ∨ first.kind = some .option →
    ∀ example_, ShowsExample types object example_ ↔ ShowsExample types first example_
  /-- Types from which no children are inherited. -/
  underived : ∀ bases, BaseChain types first.name bases →
    (first.over bases).kind = some .object →
    (∀ base ∈ bases, ∀ items, base.content ≠ .children items) →
    ∀ example_, ShowsExample types object example_ ↔ ShowsExample types first example_
  childless : first.children = [] →
    ∀ example_, ShowsExample types object example_ ↔ example_ = .object []

/-- Of whatever kind the first child is, what is shown are the entries of its own children, and that is
what it shows by itself exactly if these are the same. -/
theorem first_option_shown_iff {object group first : Element} (kind : object.kind = some .object)
    (only : object.children = [group]) (isOptionSet : group.isOptionSet = true)
    (isFirst : group.children.head? = some first) : ShowsFirst types object first := by
  have leads : RendersMembers types object [group] := only ▸ .object (.inl kind)
  have own : ∀ example_, ShowsExample types object example_ ↔
      ∃ entries, ObjectExample types first.children entries ∧ example_ = .object entries := by
    intro example_
    rw [leads.showsExample_iff]
    simp only [objectExample_group_iff isOptionSet isFirst]
  refine ⟨own, fun entries byItself => ?_, fun direct example_ => ?_,
    fun bases chain ofObject noItems example_ => ?_, fun childless example_ => ?_⟩
  · constructor
    · intro same
      obtain ⟨_, ownEntries, ⟨⟩⟩ := (own _).mp ((same _).mpr byItself)
      exact ownEntries
    · intro ownEntries example_
      have asFirst : ShowsExample types object (.object entries) :=
        (own _).mpr ⟨entries, ownEntries, rfl⟩
      exact ⟨fun shown => shown.unique asFirst ▸ byItself, fun shown => shown.unique byItself ▸ asFirst⟩
  · have leadsFirst : RendersMembers types first first.children := .object direct
    rw [own, leadsFirst.showsExample_iff]
  · have leadsFirst := rendersMembers_over chain ofObject
    rw [Element.children_over_of_childless noItems] at leadsFirst
    rw [own, leadsFirst.showsExample_iff]
  · rw [own, childless]
    constructor
    · rintro ⟨entries, nothing, rfl⟩
      rw [nothing.unique objectExample_nil]
    · rintro rfl
      exact ⟨[], objectExample_nil, rfl⟩

namespace NamedOption

/-! An option that is an object of a declared type with one property. -/

def table : SymbolTable := [("Named", { OptionGroup.option "a" with name := "object" })]

def named : Element := ⟨"Named", .absent, [], []⟩

def groupOf (first : Element) : Element :=
  ⟨"select", .children [first, OptionGroup.option "b"], [], []⟩

def object (first : Element) : Element := ⟨"object", .children [groupOf first], [], []⟩

def keyNode (name key : String) : Json :=
  .object [("element", .string name), ("content", .array
    [.object [("element", .string "member"), ("content", .object
      [("key", .object [("element", .string "string"), ("content", .string key)]),
        ("value", .object [("element", .string "string")])])]])]

/-- An option with the property itself is shown. -/
theorem first_option_shown_own :
    (object (OptionGroup.option "a")).kind = some .object ∧
      (groupOf (OptionGroup.option "a")).isOptionSet = true ∧
      ShowsFirst table (object (OptionGroup.option "a")) (OptionGroup.option "a") ∧
      ShowsExample table (object (OptionGroup.option "a"))
        (.object [("a", .string "Hello, world!")]) := by
  have shown := @first_option_shown_iff table (object (OptionGroup.option "a"))
    (groupOf (OptionGroup.option "a")) (OptionGroup.option "a") rfl rfl rfl rfl
  have byItself : ShowsExample table (OptionGroup.option "a")
      (.object [("a", .string "Hello, world!")]) := ⟨expansionSteps, renderDepth, rfl⟩
  exact ⟨rfl, rfl, shown, (shown.direct (.inr rfl) _).mpr byItself⟩

/-- The object of the declared type shows its property by itself, and nothing as first option. -/
theorem named_option_shows_nothing :
    table.Parsed ∧ (object named).Parsed ∧
      (object named).children = [groupOf named] ∧ (groupOf named).children.head? = some named ∧
      renderExample table named = .ok (.object [("a", .string "Hello, world!")]) ∧
      renderExample table (object named) = .ok (.object []) := by
  have parsedTable : table.Parsed := by
    intro entry declared
    rw [table, List.mem_singleton] at declared
    subst declared
    exact ⟨keyNode "object" "a", by decide, rfl⟩
  have parsed : (object named).Parsed :=
    ⟨.object [("element", .string "object"), ("content", .array
      [.object [("element", .string "select"), ("content", .array
        [.object [("element", .string "Named")], keyNode "option" "b"])]])], by decide, rfl⟩
  exact ⟨parsedTable, parsed, rfl, rfl, rfl, rfl⟩

end NamedOption

end Mson
