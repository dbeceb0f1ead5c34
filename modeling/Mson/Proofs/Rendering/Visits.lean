import Mathlib.Logic.Relation
import Mson.Example.Rendering
import Mson.Proofs.Expansion

/-!
# What rendering visits

`Step` says which elements the schema and the example of an element are put together from, one step
down: `rendered` are the elements that are given to a renderer, and `listed` those that stand among
the members of an object. A mixin is a listed reference; it leads to the children of its type, which
are listed in its place. Nothing else is visited, so a property of the visited elements is all that
rendering can depend on.
-/
namespace Mson

/-- An element in the place where rendering meets it. -/
inductive Visit where
  | rendered (element : Element)
  /-- An element among the members of an object. -/
  | listed (element : Element)

/-- The visits that a visit directly leads to. -/
inductive Step (types : SymbolTable) : Visit → Visit → Prop
  | item {element item : Element} (kind : element.kind = some .array)
      (child : item ∈ element.children) : Step types (.rendered element) (.rendered item)
  | firstChoice {element choice : Element} (kind : element.kind = some .enum)
      (first : element.children.head? = some choice) :
      Step types (.rendered element) (.rendered choice)
  | objectMember {element member : Element}
      (kind : element.kind = some .object ∨ element.kind = some .option)
      (child : member ∈ element.children) : Step types (.rendered element) (.listed member)
  | optionSet {element : Element} (kind : element.kind = some .optionSet) :
      Step types (.rendered element) (.listed element)
  | target {element target : Element} (kind : element.kind = some .reference)
      (found : element.target?.bind (Mapping.get? types) = some target) :
      Step types (.rendered element) (.rendered target)
  | inherit {element base : Element} (kind : element.kind = none)
      (found : Mapping.get? types element.name = some base) :
      Step types (.rendered element) (.rendered (resolveInheritance base element))
  | mixin {reference child : Element} (isReference : reference.isReference = true)
      (included : child ∈ includedChildren types reference) :
      Step types (.listed reference) (.listed child)
  | value {member value : Element} {key : String} (slot : member.slot? = some key)
      (held : member.memberValue? = some value) : Step types (.listed member) (.rendered value)
  | option {group option : Element} (isOptionSet : group.isOptionSet = true)
      (child : option ∈ group.children) : Step types (.listed group) (.rendered option)
  | firstOption {group option member : Element} (isOptionSet : group.isOptionSet = true)
      (first : group.children.head? = some option) (child : member ∈ option.children) :
      Step types (.listed group) (.listed member)

section

variable {types : SymbolTable} {element : Element} {after : Visit}

/-- An element of a named type leads to the declaration it is laid over. -/
theorem Step.of_unknown_kind (kind : element.kind = none)
    (next : Step types (.rendered element) after) :
    ∃ base, Mapping.get? types element.name = some base ∧
      after = .rendered (resolveInheritance base element) := by
  cases next with
  | inherit _ found => exact ⟨_, found, rfl⟩
  | item other _ => rw [kind] at other; cases other
  | firstChoice other _ => rw [kind] at other; cases other
  | objectMember other _ => rw [kind] at other; rcases other with other | other <;> cases other
  | optionSet other => rw [kind] at other; cases other
  | target other _ => rw [kind] at other; cases other

/-- Simple values lead nowhere. -/
theorem Step.not_of_primitive {kind : Kind} (found : element.kind = some kind)
    (primitive : kind.isPrimitive = true) : ¬ Step types (.rendered element) after := by
  intro next
  cases next with
  | item other _ => cases found.symm.trans other; cases primitive
  | firstChoice other _ => cases found.symm.trans other; cases primitive
  | objectMember other _ => rcases other with other | other <;>
      cases found.symm.trans other <;> cases primitive
  | optionSet other => cases found.symm.trans other; cases primitive
  | target other _ => cases found.symm.trans other; cases primitive
  | inherit other _ => cases found.symm.trans other

/-- An object leads to its members. -/
theorem Step.of_object (kind : element.kind = some .object ∨ element.kind = some .option)
    (next : Step types (.rendered element) after) :
    ∃ member ∈ element.children, after = .listed member := by
  cases next with
  | objectMember _ child => exact ⟨_, child, rfl⟩
  | item other _ => rcases kind with kind | kind <;> cases kind.symm.trans other
  | firstChoice other _ => rcases kind with kind | kind <;> cases kind.symm.trans other
  | optionSet other => rcases kind with kind | kind <;> cases kind.symm.trans other
  | target other _ => rcases kind with kind | kind <;> cases kind.symm.trans other
  | inherit other _ => rcases kind with kind | kind <;> cases kind.symm.trans other

/-- A reference leads to its target. -/
theorem Step.of_reference (kind : element.kind = some .reference)
    (next : Step types (.rendered element) after) :
    ∃ name target, element.target? = some name ∧ Mapping.get? types name = some target ∧
      after = .rendered target := by
  cases next with
  | target _ found =>
    obtain ⟨name, named, declared⟩ := Option.bind_eq_some_iff.mp found
    exact ⟨name, _, named, declared, rfl⟩
  | inherit other _ => rw [kind] at other; cases other
  | item other _ => rw [kind] at other; cases other
  | firstChoice other _ => rw [kind] at other; cases other
  | objectMember other _ => rw [kind] at other; rcases other with other | other <;> cases other
  | optionSet other => rw [kind] at other; cases other

end

/-- The visits that a visit leads to, itself included. -/
abbrev Visits (types : SymbolTable) : Visit → Visit → Prop := Relation.ReflTransGen (Step types)

/-- Whether a property holds of everything that a visit leads to. -/
def Throughout (types : SymbolTable) (property : Visit → Prop) (start : Visit) : Prop :=
  ∀ visit, Visits types start visit → property visit

namespace Throughout

variable {types : SymbolTable} {property : Visit → Prop} {start visit : Visit}

theorem here (holds : Throughout types property start) : property start :=
  holds start .refl

theorem step (holds : Throughout types property start) (next : Step types start visit) :
    Throughout types property visit :=
  fun later visits => holds later (.head next visits)

theorem visits (holds : Throughout types property start) (led : Visits types start visit) :
    Throughout types property visit :=
  fun later visits => holds later (led.trans visits)

theorem intro (here : property start)
    (next : ∀ after, Step types start after → Throughout types property after) :
    Throughout types property start := by
  intro visit visits
  rcases visits.cases_head with rfl | ⟨after, step, later⟩
  · exact here
  · exact next after step visit later

theorem imp {weaker : Visit → Prop} (holds : Throughout types property start)
    (implies : ∀ visit, property visit → weaker visit) : Throughout types weaker start :=
  fun visit visits => implies visit (holds visit visits)

end Throughout

/-! ## Properties of visited elements -/

def Visit.element : Visit → Element
  | .rendered element => element
  | .listed element => element

/-- A property of elements that children and values of members share with the element they stand in, and
that is kept where an element is laid over another one. -/
structure PassesOn (property : Element → Prop) : Prop where
  children : ∀ {element}, property element → ∀ child ∈ element.children, property child
  value : ∀ {element value}, property element → element.memberValue? = some value → property value
  resolveInheritance : ∀ {base derived}, property base → property derived →
    property (resolveInheritance base derived)

section

variable {types : SymbolTable} {property : Element → Prop} (passes : PassesOn property)
  (declared : ∀ entry ∈ types, property entry.2)

include passes declared

theorem PassesOn.step {before after : Visit} (next : Step types before after)
    (holds : property before.element) : property after.element := by
  have table : ∀ {name element}, Mapping.get? types name = some element → property element :=
    fun found => declared _ (Mapping.mem_of_get? found)
  cases next with
  | item _ child => exact passes.children holds _ child
  | firstChoice _ first => exact passes.children holds _ (List.mem_of_mem_head? first)
  | objectMember _ child => exact passes.children holds _ child
  | optionSet _ => exact holds
  | target _ found =>
    obtain ⟨name, _, declared⟩ := Option.bind_eq_some_iff.mp found
    exact table declared
  | inherit _ found => exact passes.resolveInheritance (table found) holds
  | mixin _ included =>
    obtain ⟨name, declaration, _, found, child⟩ := mem_includedChildren included
    exact passes.children (table found) _ child
  | value _ held => exact passes.value holds held
  | option _ child => exact passes.children holds _ child
  | firstOption _ first child =>
    exact passes.children (passes.children holds _ (List.mem_of_mem_head? first)) _ child

/-- What is declared and what is visited first pass the property on to every visit. -/
theorem PassesOn.visits {start visit : Visit} (holds : property start.element)
    (visits : Visits types start visit) : property visit.element := by
  induction visits with
  | refl => exact holds
  | tail _ next ih => exact passes.step declared next ih

end

theorem passesOn_partsWellShaped : PassesOn Element.PartsWellShaped where
  children shaped child among := (shaped.children child among).parts
  value shaped held := (shaped.value _ held).parts
  resolveInheritance := Element.PartsWellShaped.resolveInheritance

section

variable {types : SymbolTable} (parsed : types.Parsed)

include parsed

theorem SymbolTable.Parsed.partsWellShaped : ∀ entry ∈ types, entry.2.PartsWellShaped :=
  fun entry among => (parsed entry among).wellShaped.parts

/-- Whatever is visited from parsed declarations consists of well-shaped parts. -/
theorem Step.partsWellShaped {before after : Visit} (next : Step types before after)
    (shaped : before.element.PartsWellShaped) : after.element.PartsWellShaped :=
  passesOn_partsWellShaped.step parsed.partsWellShaped next shaped

theorem partsWellShaped_of_visits {start visit : Visit} (shaped : start.element.PartsWellShaped)
    (visits : Visits types start visit) : visit.element.PartsWellShaped :=
  passesOn_partsWellShaped.visits parsed.partsWellShaped shaped visits

end

/-! ## Expanded members -/

theorem Element.slot?_of_isReference {element : Element} (isReference : element.isReference = true) :
    element.slot? = none := by
  have kind : element.kind = some .reference := of_decide_eq_true isReference
  simp [Element.slot?, Element.isMember, kind]

theorem Element.slot?_of_isOptionSet {element : Element} (isOptionSet : element.isOptionSet = true) :
    element.slot? = none := by
  have kind : element.kind = some .optionSet := of_decide_eq_true isOptionSet
  simp [Element.slot?, Element.isMember, kind]

theorem not_isReference_of_slot {member : Element} {key : String} (slot : member.slot? = some key) :
    ¬ member.isReference = true := by
  intro isReference
  rw [Element.slot?_of_isReference isReference] at slot
  cases slot

theorem not_isOptionSet_of_slot {member : Element} {key : String} (slot : member.slot? = some key) :
    ¬ member.isOptionSet = true := by
  intro isOptionSet
  rw [Element.slot?_of_isOptionSet isOptionSet] at slot
  cases slot

/-- Every expanded member is visited from one of the given members, and is no reference. -/
theorem visited_of_mem_expandWithin {types : SymbolTable} {steps : Nat}
    {members expanded : List Element} (success : expandWithin types steps members = some expanded) :
    ∀ member ∈ expanded, ¬ member.isReference = true ∧
      ∃ given ∈ members, Visits types (.listed given) (.listed member) := by
  induction steps generalizing members expanded with
  | zero =>
    cases members with
    | nil => cases success; simp
    | cons => cases success
  | succ steps ih =>
    cases members with
    | nil => cases success; simp
    | cons first rest =>
      by_cases isReference : first.isReference = true
      · rw [expandWithin_cons_reference isReference] at success
        intro member result
        obtain ⟨other, given, source, visits⟩ := ih success member result
        refine ⟨other, ?_⟩
        rcases List.mem_append.mp source with included | later
        · exact ⟨first, List.mem_cons_self, .head (.mixin isReference included) visits⟩
        · exact ⟨given, List.mem_cons_of_mem _ later, visits⟩
      · rw [expandWithin_cons_other isReference, Option.map_eq_some_iff] at success
        obtain ⟨others, success, rfl⟩ := success
        intro member result
        rcases List.mem_cons.mp result with rfl | later
        · exact ⟨isReference, member, List.mem_cons_self, .refl⟩
        · obtain ⟨other, given, source, visits⟩ := ih success member later
          exact ⟨other, given, List.mem_cons_of_mem _ source, visits⟩

end Mson
