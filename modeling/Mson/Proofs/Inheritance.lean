import Mson.Inheritance
import Mson.Proofs.Refract.Shape

/-!
# What a derived element consists of

Inheritance makes no parts of its own: the children of the result are children of the base or of the
derived element, and its member value and its target are taken over from one of the two. So whatever
holds of the parts of both holds of the parts of the result, here that they are well shaped
(`PartsWellShaped`). The result itself need not be, since its kind is that of the base and its
content may be that of the derived element.
-/
namespace Mson

theorem mem_replaceMember {key : String} {child found : Element} {children : List Element}
    (member : found ∈ replaceMember key child children) : found = child ∨ found ∈ children := by
  induction children with
  | nil => exact .inl (List.mem_singleton.mp member)
  | cons other rest ih =>
    rw [replaceMember] at member
    split at member
    · exact (List.mem_cons.mp member).imp_right (List.mem_cons_of_mem other)
    · rcases List.mem_cons.mp member with rfl | later
      · exact .inr List.mem_cons_self
      · exact (ih later).imp_right (List.mem_cons_of_mem other)

theorem mem_putMember {children : List Element} {child found : Element}
    (member : found ∈ putMember children child) : found = child ∨ found ∈ children := by
  unfold putMember at member
  split at member
  · exact mem_replaceMember member
  · exact (List.mem_append.mp member).symm.imp_left List.mem_singleton.mp

theorem mem_of_mem_foldl_putMember {before children : List Element} {found : Element}
    (member : found ∈ children.foldl putMember before) : found ∈ before ∨ found ∈ children := by
  induction children generalizing before with
  | nil => exact .inl member
  | cons child rest ih =>
    rcases ih member with put | later
    · rcases mem_putMember put with rfl | earlier
      · exact .inr List.mem_cons_self
      · exact .inl earlier
    · exact .inr (List.mem_cons_of_mem _ later)

theorem mem_uniqueMembers {children : List Element} {found : Element}
    (member : found ∈ uniqueMembers children) : found ∈ children :=
  (mem_of_mem_foldl_putMember member).resolve_left List.not_mem_nil

theorem mem_joinChildren {base derived : List Element} {found : Element}
    (member : found ∈ joinChildren base derived) : found ∈ base ∨ found ∈ derived := by
  rw [← List.mem_append]
  unfold joinChildren at member
  simp only at member
  split at member
  · split at member
    · exact mem_uniqueMembers member
    · exact member
  · cases member

namespace Element

variable {base derived : Element}

/-- Content that is not put together from two collections is one of the two. -/
theorem combineContent_cases (base derived : Content) :
    (∃ first second, base = .children first ∧ derived = .children second ∧
      combineContent base derived = .children (joinChildren first second)) ∨
    combineContent base derived = derived ∨
    derived = .absent ∧ combineContent base derived = base := by
  cases derived with
  | absent => exact .inr (.inr ⟨rfl, by cases base <;> rfl⟩)
  | member _ _ => exact .inr (.inl (by cases base <;> rfl))
  | literal _ => exact .inr (.inl (by cases base <;> rfl))
  | children second =>
    cases base with
    | children first => exact .inl ⟨first, second, rfl, rfl, rfl⟩
    | _ => exact .inr (.inl rfl)

/-- The content of an element laid over another is joined from two collections, or it is that of one
of the two. -/
theorem content_resolveInheritance_cases (base derived : Element) :
    (∃ first second, base.content = .children first ∧ derived.content = .children second ∧
      (resolveInheritance base derived).content = .children (joinChildren first second)) ∨
    (resolveInheritance base derived).content = derived.content ∨
    derived.content = .absent ∧ (resolveInheritance base derived).content = base.content :=
  combineContent_cases base.content derived.content

theorem mem_children_resolveInheritance {child : Element}
    (member : child ∈ (resolveInheritance base derived).children) :
    child ∈ base.children ∨ child ∈ derived.children := by
  unfold children at member ⊢
  rcases content_resolveInheritance_cases base derived with
    ⟨first, second, fromBase, fromDerived, joined⟩ | replaced | ⟨-, kept⟩
  · rw [joined] at member
    rw [fromBase, fromDerived]
    exact mem_joinChildren member
  · rw [replaced] at member
    exact .inr member
  · rw [kept] at member
    exact .inl member

theorem memberValue?_resolveInheritance {value : Element}
    (held : (resolveInheritance base derived).memberValue? = some value) :
    base.memberValue? = some value ∨ derived.memberValue? = some value := by
  unfold memberValue? at held ⊢
  rcases content_resolveInheritance_cases base derived with
    ⟨first, second, -, -, joined⟩ | replaced | ⟨-, kept⟩
  · rw [joined] at held
    cases held
  · rw [replaced] at held
    exact .inr held
  · rw [kept] at held
    exact .inl held

theorem target?_eq_some_iff {element : Element} {name : String} :
    element.target? = some name ↔ element.content = .literal (.string name) := by
  unfold target?
  split
  · rename_i other found
    simp [found]
  · rename_i noTarget
    simp only [reduceCtorEq, false_iff]
    exact noTarget name

/-- A target of the derived element replaces that of the base. -/
theorem target?_resolveInheritance {name : String}
    (target : (resolveInheritance base derived).target? = some name) :
    derived.target? = some name ∨ derived.content = .absent ∧ base.target? = some name := by
  unfold target? at target ⊢
  rcases content_resolveInheritance_cases base derived with
    ⟨first, second, -, -, joined⟩ | replaced | ⟨absent, kept⟩
  · rw [joined] at target
    cases target
  · rw [replaced] at target
    exact .inl target
  · rw [kept] at target
    exact .inr ⟨absent, target⟩

end Element

/-- Whether the flags of an element and the elements right below it are as parsing makes them. -/
structure Element.PartsWellShaped (element : Element) : Prop where
  flags : FlagsListed element.attributes
  children : ∀ child ∈ element.children, child.WellShaped
  value : ∀ value, element.memberValue? = some value → value.WellShaped

theorem Element.WellShaped.parts {element : Element} (shaped : element.WellShaped) :
    element.PartsWellShaped :=
  ⟨shaped.flagsListed, fun _ member => shaped.children member, fun _ => shaped.memberValue⟩

theorem FlagsListed.overwrite {base derived : Mapping Json} (first : FlagsListed base)
    (second : FlagsListed derived) : FlagsListed (Mapping.overwrite base derived) := by
  refine ⟨first.1.overwrite derived, fun value found => ?_⟩
  rw [Mapping.get?_overwrite base second.1, Option.or_eq_some_iff] at found
  rcases found with own | ⟨-, inherited⟩
  · exact second.2 value own
  · exact first.2 value inherited

theorem Element.PartsWellShaped.resolveInheritance {base derived : Element}
    (first : base.PartsWellShaped) (second : derived.PartsWellShaped) :
    (resolveInheritance base derived).PartsWellShaped where
  flags := first.flags.overwrite second.flags
  children child member :=
    (mem_children_resolveInheritance member).elim (first.children child) (second.children child)
  value value held :=
    (memberValue?_resolveInheritance held).elim (first.value value) (second.value value)

end Mson
