import Mson.Proofs.Rendering.Object
import Mson.Proofs.UniqueMembers

/-!
# Chains of declarations

An element of a named type is laid over its declaration, the result over the declaration that this one
names, and so on until a kind or an undeclared name is reached. `BaseChain` are the declarations that
are met, and `Element.over` is the element laid over all of them. Rendering takes the steps one by one
and has the members of the last result (`rendersMembers_over`). Each child of the element and of the
declarations is represented there if that result holds a collection (`represented_over`), and a member
of the element itself is the last one with its key (`Stands.over`).
-/
namespace Mson

variable {types : SymbolTable}

/-- The declarations that an element of the given name is laid over, one after the other. -/
inductive BaseChain (types : SymbolTable) : String → List Element → Prop
  | nil {name : String} (ends : Kind.ofName? name ≠ none ∨ Mapping.get? types name = none) :
      BaseChain types name []
  | cons {name : String} {declaration : Element} {bases : List Element}
      (named : Kind.ofName? name = none) (found : Mapping.get? types name = some declaration)
      (chain : BaseChain types declaration.name bases) : BaseChain types name (declaration :: bases)

/-- An element laid over declarations, one after the other. -/
def Element.over (element : Element) (bases : List Element) : Element :=
  bases.foldl (fun derived base => resolveInheritance base derived) element

@[simp] theorem Element.over_nil (element : Element) : element.over [] = element := rfl

@[simp] theorem Element.over_cons (element base : Element) (bases : List Element) :
    element.over (base :: bases) = (resolveInheritance base element).over bases := rfl

/-- An element whose declarations come to an object has the members of all of them. -/
theorem rendersMembers_over {element : Element} {bases : List Element}
    (chain : BaseChain types element.name bases) (kind : (element.over bases).kind = some .object) :
    RendersMembers types element (element.over bases).children := by
  induction bases generalizing element with
  | nil => exact .object (.inl kind)
  | cons base rest ih =>
    cases chain with
    | cons named found chain =>
      have laidOver : BaseChain types (resolveInheritance base element).name rest := chain
      exact .inherit named found (ih laidOver kind)

/-- Laying over makes no children of its own. -/
theorem mem_children_over {element child : Element} {bases : List Element}
    (member : child ∈ (element.over bases).children) :
    child ∈ element.children ∨ ∃ base ∈ bases, child ∈ base.children := by
  induction bases generalizing element with
  | nil => exact .inl member
  | cons base rest ih =>
    rcases ih member with here | ⟨other, later, inherited⟩
    · rcases Element.mem_children_resolveInheritance here with inherited | own
      · exact .inr ⟨base, List.mem_cons_self, inherited⟩
      · exact .inl own
    · exact .inr ⟨other, List.mem_cons_of_mem _ later, inherited⟩

/-- Declarations without children of their own leave the children of an element as they are. -/
theorem Element.children_over_of_childless {element : Element} {bases : List Element}
    (childless : ∀ base ∈ bases, ∀ items, base.content ≠ .children items) :
    (element.over bases).children = element.children := by
  induction bases generalizing element with
  | nil => rfl
  | cons base rest ih =>
    obtain ⟨noItems, later⟩ := List.forall_mem_cons.mp childless
    rw [Element.over_cons, ih later]
    unfold children
    rcases content_resolveInheritance_cases base element with
      ⟨first, second, own, -, -⟩ | replaced | ⟨absent, kept⟩
    · exact absurd own (noItems first)
    · rw [replaced]
    · rw [kept, absent]
      split
      · rename_i items own
        exact absurd own (noItems items)
      · rfl

/-- Content that is neither missing nor a collection stands whatever it is laid over. -/
theorem Element.content_over_of_single {element : Element} (present : element.content ≠ .absent)
    (single : ∀ items, element.content ≠ .children items) (bases : List Element) :
    (element.over bases).content = element.content := by
  induction bases generalizing element with
  | nil => rfl
  | cons base rest ih =>
    have stands : (resolveInheritance base element).content = element.content := by
      rcases content_resolveInheritance_cases base element with
        ⟨first, second, -, own, -⟩ | replaced | ⟨absent, -⟩
      · exact absurd own (single second)
      · exact replaced
      · exact absurd absent present
    rw [over_cons, ih (stands ▸ present) (stands ▸ single), stands]

theorem exists_content_of_mem_children {element child : Element} (among : child ∈ element.children) :
    ∃ items, element.content = .children items := by
  unfold Element.children at among
  split at among
  · rename_i items content
    exact ⟨items, content⟩
  · cases among

theorem Element.exists_children_over {element : Element} {own : List Element}
    (content : element.content = .children own) (bases : List Element) :
    ∃ items, (element.over bases).content = .children items := by
  induction bases generalizing element own with
  | nil => exact ⟨own, content⟩
  | cons base rest ih =>
    rcases content_resolveInheritance_cases base element with
      ⟨first, second, -, -, joined⟩ | replaced | ⟨absent, -⟩
    · exact ih joined
    · exact ih (replaced.trans content)
    · rw [absent] at content
      cases content

/-- If an element laid over others holds a collection, whatever child it has or inherits is
represented there. -/
theorem represented_over {element child : Element} {bases items : List Element}
    (content : (element.over bases).content = .children items)
    (among : Represented child element.children ∨ ∃ base ∈ bases, child ∈ base.children) :
    Represented child items := by
  induction bases generalizing element with
  | nil =>
    rcases among with own | ⟨_, none, _⟩
    · rwa [Element.children, show element.content = .children items from content] at own
    · cases none
  | cons base rest ih =>
    have collects : element.content = .absent ∨ ∃ items, element.content = .children items := by
      cases own : element.content with
      | absent => exact .inl rfl
      | children second => exact .inr ⟨second, rfl⟩
      | _ =>
        rw [Element.content_over_of_single (by simp [own]) (by simp [own]), own] at content
        cases content
    refine ih content ?_
    rcases among with own | ⟨other, isBase, inherited⟩
    · exact .inl (represented_resolveInheritance collects (.inl own))
    · rcases List.mem_cons.mp isBase with rfl | later
      · exact .inl (represented_resolveInheritance collects (.inr inherited))
      · exact .inr ⟨other, later, inherited⟩

/-- A member of an element stays the last one with its key when the element is laid over others. -/
theorem Stands.over {key : String} {member : Element} {children : List Element}
    {element : Element} (content : element.content = .children children)
    (stands : Stands key member children) (slot : member.slot? = some key) (bases : List Element) :
    Stands key member (element.over bases).children := by
  induction bases generalizing element children with
  | nil =>
    rw [Element.over_nil, Element.children, content]
    exact stands
  | cons base rest ih =>
    rw [Element.over_cons]
    rcases Element.content_resolveInheritance_cases base element with
      ⟨first, second, -, own, joined⟩ | replaced | ⟨absent, -⟩
    · rw [own] at content
      cases content
      exact ih joined (stands.joinChildren slot first)
    · exact ih (replaced.trans content) stands
    · rw [absent] at content
      cases content

/-! ## Properties -/

/-- What a child contributes is a property wherever the child is represented. -/
theorem Represented.contributes {child : Element} {members : List Element} {schema : Schema}
    {name : String} (represented : Represented child members)
    (object : ObjectSchema types members schema) (contributes : Contributes types child name) :
    name ∈ Mapping.names (Schema.propertiesOf schema) := by
  rw [object.mem_names_iff]
  cases slot : child.slot? with
  | none =>
    simp only [Represented, slot] at represented
    exact ⟨child, represented, contributes⟩
  | some key =>
    simp only [Represented, slot] at represented
    obtain ⟨other, among, same⟩ := mem_slots_iff.mp represented
    obtain ⟨ofOther, single⟩ := object.single among
    obtain ⟨ofChild, childObject, named⟩ := contributes
    have isKey : name = key :=
      (contributes_iff_of_slot childObject slot).mp ⟨ofChild, childObject, named⟩
    exact ⟨other, among, (contributes_iff_of_slot single same).mpr isKey⟩

/-- The properties of a declaration laid over its bases are its own and those that the bases
contribute. -/
theorem mem_names_over_iff {declaration : Element} {bases : List Element} {own all : Schema}
    (ofOwn : ObjectSchema types declaration.children own)
    (ofAll : ObjectSchema types (declaration.over bases).children all) {property : String} :
    property ∈ Mapping.names (Schema.propertiesOf all) ↔
      property ∈ Mapping.names (Schema.propertiesOf own) ∨
        (∃ items, (declaration.over bases).content = .children items) ∧
          ∃ base ∈ bases, ∃ child ∈ base.children, Contributes types child property := by
  constructor
  · intro named
    obtain ⟨child, among, contributes⟩ := ofAll.mem_names_iff.mp named
    rcases mem_children_over among with here | ⟨base, isBase, inherited⟩
    · exact .inl (ofOwn.mem_names_iff.mpr ⟨child, here, contributes⟩)
    · exact .inr ⟨exists_content_of_mem_children among, base, isBase, child, inherited, contributes⟩
  · rintro (named | ⟨⟨items, content⟩, base, isBase, child, inherited, contributes⟩)
    · obtain ⟨child, among, contributes⟩ := ofOwn.mem_names_iff.mp named
      obtain ⟨second, own⟩ := exists_content_of_mem_children among
      obtain ⟨items, content⟩ := Element.exists_children_over own bases
      rw [Element.children, content] at ofAll
      exact (represented_over content (.inl (.of_mem among))).contributes ofAll contributes
    · rw [Element.children, content] at ofAll
      exact (represented_over content (.inr ⟨base, isBase, inherited⟩)).contributes ofAll contributes

end Mson
