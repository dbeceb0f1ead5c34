import Mson.Proofs.Inheritance
import Mson.Proofs.Placement

/-!
# Joined children

What becomes of the children of a base and a derived element when they are joined. No child gets
lost altogether: a member may be replaced, and then another one with its key is there
(`Represented`). Of the members with one key the last one is left (`Stands`), so members of the
derived element stay.
-/
namespace Mson

/-- The keys of the members among some children, in order. -/
def slots (children : List Element) : List String := children.filterMap Element.slot?

/-- Whether a member is the last one with its key. -/
def Stands (key : String) (member : Element) (children : List Element) : Prop :=
  ∃ before after, children = before ++ member :: after ∧ ∀ other ∈ after, other.slot? ≠ some key

/-- Whether a child or, if it has a key, a member with its key is among some children. -/
def Represented (child : Element) (children : List Element) : Prop :=
  match child.slot? with
  | none => child ∈ children
  | some key => key ∈ slots children

/-- A child is placed by its key. -/
theorem places_putMember : Places Element.slot? putMember where
  nil child := by
    unfold putMember
    split <;> rfl
  replace named same rest := by simp [putMember, named, replaceMember, same]
  pass {child first} other rest := by
    unfold putMember
    split
    · rename_i key slot
      rw [replaceMember, if_neg (other key slot)]
    · rfl

section Slots

variable {key : String} {child member : Element} {children : List Element}

theorem mem_slots_iff : key ∈ slots children ↔ ∃ child ∈ children, child.slot? = some key :=
  List.mem_filterMap

@[simp] theorem slots_append (first second : List Element) :
    slots (first ++ second) = slots first ++ slots second :=
  List.filterMap_append

theorem mem_slots_putMember_iff :
    key ∈ slots (putMember children child) ↔ key ∈ slots children ∨ child.slot? = some key :=
  places_putMember.mem_keys_place_iff _

theorem mem_replaceMember_of_slotless (among : member ∈ children) (slotless : member.slot? = none) :
    member ∈ replaceMember key child children := by
  induction children with
  | nil => cases among
  | cons other rest ih =>
    rw [replaceMember]
    split
    · rename_i slot
      rcases List.mem_cons.mp among with rfl | later
      · rw [slotless] at slot
        cases slot
      · exact List.mem_cons_of_mem child later
    · exact (List.mem_cons.mp among).elim (fun same => same ▸ List.mem_cons_self)
        fun later => List.mem_cons_of_mem other (ih later)

/-- A child without a key is not replaced. -/
theorem mem_putMember_of_slotless (among : member ∈ children) (slotless : member.slot? = none) :
    member ∈ putMember children child := by
  unfold putMember
  split
  · exact mem_replaceMember_of_slotless among slotless
  · exact List.mem_append_left _ among

theorem nodup_slots_putMember (distinct : (slots children).Nodup) :
    (slots (putMember children child)).Nodup :=
  places_putMember.nodup_keys_place _ distinct

theorem nodup_slots_uniqueMembers : (slots (uniqueMembers children)).Nodup :=
  places_putMember.nodup_keys_foldl _ List.nodup_nil

theorem mem_replaceMember_self : child ∈ replaceMember key child children := by
  induction children with
  | nil => exact List.mem_singleton_self child
  | cons other rest ih =>
    rw [replaceMember]
    split
    · exact List.mem_cons_self
    · exact List.mem_cons_of_mem other ih

theorem mem_putMember_self : child ∈ putMember children child := by
  unfold putMember
  split
  · exact mem_replaceMember_self
  · exact List.mem_append_right _ (List.mem_singleton_self child)

/-- Where no key comes twice, every member is the last one with its key. -/
theorem stands_of_nodup (distinct : (slots children).Nodup) (among : member ∈ children)
    (slot : member.slot? = some key) : Stands key member children := by
  obtain ⟨before, after, rfl⟩ := List.append_of_mem among
  refine ⟨before, after, rfl, fun other later same => ?_⟩
  have tail : slots (member :: after) = key :: slots after := by simp [slots, slot]
  rw [slots_append, tail] at distinct
  have own := (List.nodup_append.mp distinct).2.1
  exact (List.nodup_cons.mp own).1 (mem_slots_iff.mpr ⟨other, later, same⟩)

end Slots

namespace Stands

variable {key : String} {member : Element} {children : List Element}

theorem prepend (stands : Stands key member children) (earlier : List Element) :
    Stands key member (earlier ++ children) := by
  obtain ⟨before, after, rfl, last⟩ := stands
  exact ⟨earlier ++ before, after, (List.append_assoc ..).symm, last⟩

/-- Replacing a member with another key leaves a member where it is. -/
theorem replaceMember_of_ne (stands : Stands key member children) (slot : member.slot? = some key)
    {child : Element} {other : String} (childSlot : child.slot? = some other)
    (different : other ≠ key) : Stands key member (replaceMember other child children) := by
  obtain ⟨before, after, rfl, last⟩ := stands
  have memberOther : ¬ member.slot? = some other := by
    rw [slot, Option.some_inj]
    exact Ne.symm different
  induction before with
  | nil =>
    rw [List.nil_append, replaceMember, if_neg memberOther]
    refine ⟨[], replaceMember other child after, rfl, fun found later => ?_⟩
    rcases mem_replaceMember later with rfl | old
    · rw [childSlot, Ne, Option.some_inj]
      exact different
    · exact last found old
  | cons first rest ih =>
    rw [List.cons_append, replaceMember]
    split
    · exact ⟨child :: rest, after, rfl, last⟩
    · exact ih.prepend [first]

theorem putMember_of_ne (stands : Stands key member children) (slot : member.slot? = some key)
    {child : Element} (different : child.slot? ≠ some key) :
    Stands key member (putMember children child) := by
  unfold putMember
  split
  · rename_i other childSlot
    refine stands.replaceMember_of_ne slot childSlot fun same => different ?_
    rw [childSlot, same]
  · obtain ⟨before, after, rfl, last⟩ := stands
    refine ⟨before, after ++ [child], by simp, fun other later => ?_⟩
    rcases List.mem_append.mp later with old | new
    · exact last other old
    · rwa [List.mem_singleton.mp new]

theorem foldl_putMember (stands : Stands key member children) (slot : member.slot? = some key)
    {later : List Element} (different : ∀ child ∈ later, child.slot? ≠ some key) :
    Stands key member (later.foldl putMember children) := by
  induction later generalizing children with
  | nil => exact stands
  | cons child rest ih =>
    exact ih (stands.putMember_of_ne slot (different child List.mem_cons_self))
      fun other member => different other (List.mem_cons_of_mem _ member)

/-- Of the members with one key the last one is left. -/
theorem uniqueMembers (stands : Stands key member children) (slot : member.slot? = some key) :
    Stands key member (uniqueMembers children) := by
  obtain ⟨before, after, rfl, last⟩ := stands
  rw [Mson.uniqueMembers, List.foldl_append, List.foldl_cons]
  have distinct : (slots (before.foldl putMember [])).Nodup := nodup_slots_uniqueMembers
  have placed : Stands key member (putMember (before.foldl putMember []) member) :=
    stands_of_nodup (nodup_slots_putMember distinct) mem_putMember_self slot
  exact placed.foldl_putMember slot last

/-- A member without a later one with its key stays when children without that key follow. -/
theorem append (stands : Stands key member children) {later : List Element}
    (absent : key ∉ slots later) : Stands key member (children ++ later) := by
  obtain ⟨before, after, rfl, last⟩ := stands
  refine ⟨before, after ++ later, by simp, fun other among => ?_⟩
  rcases List.mem_append.mp among with old | new
  · exact last other old
  · exact fun same => absent (mem_slots_iff.mpr ⟨other, new, same⟩)

theorem joined {base derived : List Element} (whole : Stands key member (base ++ derived))
    (slot : member.slot? = some key) : Stands key member (Mson.joinChildren base derived) := by
  unfold Mson.joinChildren
  simp only
  split
  · split
    · exact whole.uniqueMembers slot
    · exact whole
  · rename_i nothing
    rwa [nothing] at whole

theorem joinChildren (stands : Stands key member children) (slot : member.slot? = some key)
    (base : List Element) : Stands key member (joinChildren base children) :=
  (stands.prepend base).joined slot

end Stands

namespace Represented

variable {child : Element} {children : List Element}

theorem of_mem (among : child ∈ children) : Represented child children := by
  unfold Represented
  cases slot : child.slot? with
  | none => exact among
  | some key => exact mem_slots_iff.mpr ⟨child, among, slot⟩

theorem not_nil : ¬ Represented child [] := by
  unfold Represented
  split
  · exact List.not_mem_nil
  · exact List.not_mem_nil

theorem trans {result : List Element} (represented : Represented child children)
    (each : ∀ other ∈ children, Represented other result) : Represented child result := by
  cases slot : child.slot? with
  | none =>
    simp only [Represented, slot] at represented
    exact each child represented
  | some key =>
    simp only [Represented, slot] at represented ⊢
    obtain ⟨other, among, same⟩ := mem_slots_iff.mp represented
    simpa only [Represented, same] using each other among

theorem putMember (represented : Represented child children) (other : Element) :
    Represented child (putMember children other) := by
  cases slot : child.slot? with
  | none =>
    simp only [Represented, slot] at represented ⊢
    exact mem_putMember_of_slotless represented slot
  | some key =>
    simp only [Represented, slot] at represented ⊢
    exact mem_slots_putMember_iff.mpr (.inl represented)

theorem foldl_putMember (represented : Represented child children) (later : List Element) :
    Represented child (later.foldl Mson.putMember children) := by
  induction later generalizing children with
  | nil => exact represented
  | cons other rest ih => exact ih (represented.putMember other)

theorem uniqueMembers (among : child ∈ children) : Represented child (uniqueMembers children) := by
  obtain ⟨before, after, rfl⟩ := List.append_of_mem among
  rw [Mson.uniqueMembers, List.foldl_append, List.foldl_cons]
  exact (of_mem mem_putMember_self).foldl_putMember after

theorem joinChildren {base : List Element} (among : child ∈ base ∨ child ∈ children) :
    Represented child (joinChildren base children) := by
  have whole : child ∈ base ++ children := List.mem_append.mpr among
  unfold Mson.joinChildren
  simp only
  split
  · split
    · exact uniqueMembers whole
    · exact of_mem whole
  · rename_i nothing
    rw [nothing] at whole
    cases whole

end Represented

/-- An element that has children or no content keeps its children and those of the base, or others
with their keys. -/
theorem represented_resolveInheritance {base derived child : Element}
    (collects : derived.content = .absent ∨ ∃ items, derived.content = .children items)
    (among : Represented child derived.children ∨ child ∈ base.children) :
    Represented child (resolveInheritance base derived).children := by
  have combined : (resolveInheritance base derived).content =
      combineContent base.content derived.content := rfl
  unfold Element.children at among ⊢
  rw [combined]
  rcases collects with absent | ⟨second, own⟩
  · rw [absent] at among ⊢
    have kept : combineContent base.content .absent = base.content := by
      cases base.content <;> rfl
    rw [kept]
    exact .of_mem (among.resolve_left Represented.not_nil)
  · rw [own] at among ⊢
    cases inherited : base.content with
    | children first =>
      rw [inherited] at among
      rcases among with represented | base
      · exact represented.trans fun other present => .joinChildren (.inr present)
      · exact .joinChildren (.inl base)
    | _ =>
      rw [inherited] at among
      exact among.resolve_right List.not_mem_nil

end Mson
