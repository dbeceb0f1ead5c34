import Mson.Proofs.JoinedMembers

/-!
# Last definitions

When members are settled by their keys, each key keeps its first place and its last definition
(`uniqueMembers_keeps_last`). The places that are left are those at which no earlier child has the key
(`firstPlaces`), and what is found there takes the part of the child that was there before
(`StandsFor`). Both are followed through the loop by one step: what has a new key, or none, goes to the
end together with its place; what has a key that is there takes over its place.
-/
namespace Mson

/-- The places at which no earlier child has the key of the one that is there. -/
def firstPlaces (children : List Element) : List Nat :=
  (List.range children.length).filter fun place =>
    ∀ key ∈ children[place]?.bind Element.slot?, key ∉ slots (children.take place)

/-- Whether a result takes the part of the child at a place: without a key it is that child, and with
one it is the last child that has it. -/
structure StandsFor (children : List Element) (place : Nat) (result : Element) : Prop where
  original : ∃ child, children[place]? = some child ∧ child.slot? = result.slot? ∧
    (child.slot? = none → result = child)
  last : ∀ key, result.slot? = some key → Stands key result children

section Places

variable {earlier : List Element} {child : Element}

theorem firstPlaces_append_singleton (earlier : List Element) (child : Element) :
    firstPlaces (earlier ++ [child]) =
      firstPlaces earlier ++
        if ∀ key ∈ child.slot?, key ∉ slots earlier then [earlier.length] else [] := by
  have before : ∀ place ∈ List.range earlier.length,
      decide (∀ key ∈ (earlier ++ [child])[place]?.bind Element.slot?,
          key ∉ slots ((earlier ++ [child]).take place)) =
        decide (∀ key ∈ earlier[place]?.bind Element.slot?, key ∉ slots (earlier.take place)) := by
    intro place among
    have bound := List.mem_range.mp among
    rw [List.getElem?_append_left bound, List.take_append_of_le_length (Nat.le_of_lt bound)]
  have here : (earlier ++ [child])[earlier.length]? = some child := by simp
  rw [firstPlaces, List.length_append, List.length_singleton, List.range_succ, List.filter_append,
    List.filter_congr before, firstPlaces, List.filter_singleton, here, List.take_left']
  · simp
  · rfl

theorem firstPlaces_of_new (new : ∀ key, child.slot? = some key → key ∉ slots earlier) :
    firstPlaces (earlier ++ [child]) = firstPlaces earlier ++ [earlier.length] := by
  have kept : ∀ key ∈ child.slot?, key ∉ slots earlier := new
  rw [firstPlaces_append_singleton, if_pos kept]

theorem firstPlaces_of_old {key : String} (slot : child.slot? = some key)
    (present : key ∈ slots earlier) : firstPlaces (earlier ++ [child]) = firstPlaces earlier := by
  have dropped : ¬ ∀ key ∈ child.slot?, key ∉ slots earlier := fun new => new key slot present
  rw [firstPlaces_append_singleton, if_neg dropped, List.append_nil]

end Places

namespace StandsFor

variable {earlier results : List Element} {places : List Nat} {place : Nat} {child result : Element}

/-- The part is kept while children with other keys follow. -/
theorem append (standsFor : StandsFor earlier place result)
    (different : ∀ key, result.slot? = some key → child.slot? ≠ some key) :
    StandsFor (earlier ++ [child]) place result where
  original := by
    obtain ⟨own, found, same⟩ := standsFor.original
    obtain ⟨bound, -⟩ := List.getElem?_eq_some_iff.mp found
    exact ⟨own, by rw [List.getElem?_append_left bound, found], same⟩
  last key slot := by
    refine (standsFor.last key slot).append fun among => ?_
    obtain ⟨other, only, same⟩ := mem_slots_iff.mp among
    rw [List.mem_singleton.mp only] at same
    exact different key slot same

theorem appended (earlier : List Element) (child : Element) :
    StandsFor (earlier ++ [child]) earlier.length child where
  original := ⟨child, by simp, rfl, fun _ => rfl⟩
  last key _ := ⟨earlier, [], rfl, fun _ none => nomatch none⟩

/-- A child takes over the part of an earlier one with its key. -/
theorem takeOver {key : String} (standsFor : StandsFor earlier place result)
    (same : result.slot? = some key) (slot : child.slot? = some key) :
    StandsFor (earlier ++ [child]) place child where
  original := by
    obtain ⟨own, found, ownSlot, -⟩ := standsFor.original
    obtain ⟨bound, -⟩ := List.getElem?_eq_some_iff.mp found
    refine ⟨own, by rw [List.getElem?_append_left bound, found], ?_, fun keyless => ?_⟩
    · rw [ownSlot, same, slot]
    · rw [ownSlot, same] at keyless
      cases keyless
  last := (appended earlier child).last

theorem append_all (each : List.Forall₂ (StandsFor earlier) places results)
    (new : ∀ key, child.slot? = some key → key ∉ slots results) :
    List.Forall₂ (StandsFor (earlier ++ [child])) places results := by
  induction each with
  | nil => exact .nil
  | cons standsFor rest ih =>
    refine .cons (standsFor.append fun key slot same => ?_) (ih fun key slot among => ?_)
    · exact new key same (mem_slots_iff.mpr ⟨_, List.mem_cons_self, slot⟩)
    · obtain ⟨other, later, same⟩ := mem_slots_iff.mp among
      exact new key slot (mem_slots_iff.mpr ⟨other, List.mem_cons_of_mem _ later, same⟩)

/-- A key that is there keeps its place. -/
theorem putMember_of_old {key : String} (each : List.Forall₂ (StandsFor earlier) places results)
    (distinct : (slots results).Nodup) (slot : child.slot? = some key) (present : key ∈ slots results) :
    List.Forall₂ (StandsFor (earlier ++ [child])) places (putMember results child) := by
  induction each with
  | nil => cases present
  | @cons place first places rest standsFor restStands ih =>
    have distinctRest : (slots rest).Nodup := Places.nodup_keys_of_cons distinct
    by_cases same : first.slot? = some key
    · rw [places_putMember.replace slot same]
      -- No key stands twice among the results, so that the child concerns none of the rest.
      refine .cons (standsFor.takeOver same slot) (append_all restStands fun other isOther => ?_)
      rw [slot] at isOther
      cases isOther
      exact Places.not_mem_keys_of_cons distinct same
    · have other : ∀ found, child.slot? = some found → first.slot? ≠ some found := by
        intro found isFound
        rw [slot] at isFound
        cases isFound
        exact same
      have later : key ∈ slots rest := (Places.mem_keys_cons_iff.mp present).resolve_left same
      rw [places_putMember.pass other]
      exact .cons (standsFor.append fun found ofFirst ofChild => other found ofChild ofFirst)
        (ih distinctRest later)

theorem putMember_of_new (each : List.Forall₂ (StandsFor earlier) places results)
    (new : ∀ key, child.slot? = some key → key ∉ slots results) :
    List.Forall₂ (StandsFor (earlier ++ [child])) (places ++ [earlier.length])
      (putMember results child) := by
  rw [places_putMember.eq_append_of_new new]
  exact List.rel_append (append_all each new) (.cons (appended earlier child) .nil)

end StandsFor

section UniqueMembers

variable {key : String} {children : List Element}

theorem mem_slots_uniqueMembers_iff : key ∈ slots (uniqueMembers children) ↔ key ∈ slots children := by
  have sameKeys : slots (uniqueMembers children) = (slots children).eraseDups :=
    places_putMember.keys_foldl children
  rw [sameKeys, List.mem_eraseDups]

/-- What is left stands in the order of the first places, each for the child that was there. -/
theorem standsFor_uniqueMembers (children : List Element) :
    List.Forall₂ (StandsFor children) (firstPlaces children) (uniqueMembers children) := by
  induction children using List.reverseRecOn with
  | nil => exact .nil
  | append_singleton earlier child ih =>
    have step : uniqueMembers (earlier ++ [child]) = putMember (uniqueMembers earlier) child :=
      List.foldl_append
    rw [step]
    -- Results and children have the same keys, so both sides take the same branch.
    by_cases old : ∃ key, child.slot? = some key ∧ key ∈ slots earlier
    · obtain ⟨key, slot, present⟩ := old
      rw [firstPlaces_of_old slot present]
      exact StandsFor.putMember_of_old ih nodup_slots_uniqueMembers slot
        (mem_slots_uniqueMembers_iff.mpr present)
    · have new : ∀ key, child.slot? = some key → key ∉ slots earlier :=
        fun key slot present => old ⟨key, slot, present⟩
      rw [firstPlaces_of_new new]
      exact StandsFor.putMember_of_new ih fun key slot present =>
        new key slot (mem_slots_uniqueMembers_iff.mp present)

theorem exists_stands_of_mem_slots (present : key ∈ slots children) :
    ∃ member, member.slot? = some key ∧ Stands key member children := by
  induction children using List.reverseRecOn with
  | nil => cases present
  | append_singleton earlier child ih =>
    by_cases slot : child.slot? = some key
    · exact ⟨child, slot, earlier, [], rfl, fun _ none => nomatch none⟩
    · have absent : key ∉ slots [child] := fun among => by
        obtain ⟨other, only, same⟩ := mem_slots_iff.mp among
        rw [List.mem_singleton.mp only] at same
        exact slot same
      rw [slots_append, List.mem_append] at present
      obtain ⟨member, same, stands⟩ := ih (present.resolve_right absent)
      exact ⟨member, same, stands.append absent⟩

end UniqueMembers

/-- Settling members by key leaves each key once, with its last definition, and every other child as
often and in the order as it was. What is left stands in the order of the first places of the keys and of
the other children. Settling a part of a collection first, or settling twice, changes nothing. -/
theorem uniqueMembers_keeps_last (children : List Element) :
    (∀ key ∈ slots children, ∃ member, member.slot? = some key ∧ Stands key member children ∧
      membersOf key (uniqueMembers children) = [member]) ∧
    (∀ key ∉ slots children, membersOf key (uniqueMembers children) = []) ∧
    (uniqueMembers children).filter (·.slot?.isNone) = children.filter (·.slot?.isNone) ∧
    List.Forall₂ (StandsFor children) (firstPlaces children) (uniqueMembers children) ∧
    uniqueMembers (uniqueMembers children) = uniqueMembers children ∧
    ∀ later, uniqueMembers (uniqueMembers children ++ later) = uniqueMembers (children ++ later) := by
  refine ⟨fun key present => ?_, fun key absent => ?_, ?_, standsFor_uniqueMembers children,
    uniqueMembers_uniqueMembers children, uniqueMembers_append_left children⟩
  · obtain ⟨member, slot, stands⟩ := exists_stands_of_mem_slots present
    exact ⟨member, slot, stands,
      (stands.uniqueMembers slot).membersOf_eq slot nodup_slots_uniqueMembers⟩
  · exact membersOf_eq_nil fun among => absent (mem_slots_uniqueMembers_iff.mp among)
  · exact places_putMember.keyless_foldl children

namespace LeadingMixin

/-- A number that turns into a flag, between two mixins of one type. -/
def repeated : List Element :=
  [mixin, keyed "id" .number, keyed "name" .string, keyed "id" .boolean, mixin]

/-- Both mixins stay, and the flag is found where the number was. -/
theorem uniqueMembers_keeps_last_between :
    uniqueMembers repeated = [mixin, keyed "id" .boolean, keyed "name" .string, mixin] ∧
      firstPlaces repeated = [0, 1, 2, 4] ∧
      List.Forall₂ (StandsFor repeated) (firstPlaces repeated) (uniqueMembers repeated) ∧
      membersOf "id" (uniqueMembers repeated) = [keyed "id" .boolean] ∧
      membersOf "size" (uniqueMembers repeated) = [] := by
  obtain ⟨-, absent, -, inOrder, -⟩ := uniqueMembers_keeps_last repeated
  have settled : uniqueMembers repeated =
      [mixin, keyed "id" .boolean, keyed "name" .string, mixin] := rfl
  have flag : membersOf "id" (uniqueMembers repeated) = [keyed "id" .boolean] := by
    rw [settled]
    rfl
  exact ⟨settled, by decide, inOrder, flag, absent "size" (by decide)⟩

end LeadingMixin

end Mson
