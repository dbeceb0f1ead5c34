import Mson.Proofs.UniqueMembers

/-!
# Members of joined collections

Joining the children of a base and a derived element settles the members by key only if the joined list
begins with a member. Then there is one member for each key, that of the derived element if it has the
key. A list that begins with anything else stays as it is, so that a key which both elements have is
there twice (`overrides_iff`).

Of three collections it does not matter which two are joined first, provided that the first of them is
empty or begins with a member: whether the later ones have been settled before or not is then made up
for when the first one is joined to them. So an element may be laid over a chain of bases from either
end (`resolveInheritance_assoc`).
-/
namespace Mson

/-- The members with a key. -/
def membersOf (key : String) (children : List Element) : List Element :=
  children.filter fun child => child.slot? = some key

/-- Whether for each key of a base or a derived collection a joined one has one member: that of the
derived collection if it has the key, and else that of the base. -/
structure Overrides (base derived joined : List Element) : Prop where
  own : ∀ key ∈ slots derived,
    ∃ member ∈ derived, member.slot? = some key ∧ membersOf key joined = [member]
  inherited : ∀ key ∈ slots base, key ∉ slots derived →
    ∃ member ∈ base, member.slot? = some key ∧ membersOf key joined = [member]

/-- Whether the first child of a collection is a member. -/
def BeginsWithMember : List Element → Prop
  | [] => False
  | first :: _ => first.isMember = true

instance : DecidablePred BeginsWithMember
  | [] => .isFalse id
  | first :: _ => inferInstanceAs (Decidable (first.isMember = true))

section

variable {key : String} {member : Element} {children base derived : List Element}

@[simp] theorem membersOf_append (first second : List Element) :
    membersOf key (first ++ second) = membersOf key first ++ membersOf key second :=
  List.filter_append ..

theorem membersOf_eq_nil (absent : key ∉ slots children) : membersOf key children = [] := by
  refine List.filter_eq_nil_iff.mpr fun child among isKey => absent ?_
  exact mem_slots_iff.mpr ⟨child, among, of_decide_eq_true isKey⟩

/-- Where no key comes twice, the last member with a key is the only one. -/
theorem Stands.membersOf_eq (stands : Stands key member children) (slot : member.slot? = some key)
    (distinct : (slots children).Nodup) : membersOf key children = [member] := by
  obtain ⟨before, after, rfl, last⟩ := stands
  have noneAfter : key ∉ slots after := fun among => by
    obtain ⟨other, later, same⟩ := mem_slots_iff.mp among
    exact last other later same
  have noneBefore : key ∉ slots before := fun among => by
    rw [slots_append] at distinct
    have inRest : key ∈ slots (member :: after) := mem_slots_iff.mpr ⟨member, List.mem_cons_self, slot⟩
    exact (List.nodup_append.mp distinct).2.2 key among key inRest rfl
  have here : membersOf key (member :: after) = member :: membersOf key after :=
    List.filter_cons_of_pos (decide_eq_true slot)
  rw [membersOf_append, here, membersOf_eq_nil noneBefore, membersOf_eq_nil noneAfter,
    List.nil_append]

theorem BeginsWithMember.append (begins : BeginsWithMember base) (derived : List Element) :
    BeginsWithMember (base ++ derived) := by
  cases base with
  | nil => cases begins
  | cons first rest => exact begins

theorem joinChildren_of_begins (begins : BeginsWithMember (base ++ derived)) :
    joinChildren base derived = uniqueMembers (base ++ derived) := by
  unfold joinChildren
  simp only
  split
  · rename_i joined
    rw [joined] at begins
    exact if_pos begins
  · rename_i nothing
    rw [nothing] at begins
    cases begins

theorem joinChildren_of_not_begins (other : ¬ BeginsWithMember (base ++ derived)) :
    joinChildren base derived = base ++ derived := by
  unfold joinChildren
  simp only
  split
  · rename_i joined
    rw [joined] at other
    exact if_neg other
  · rename_i nothing
    exact nothing.symm

end

/-! ## Keys in common -/

section Overriding

variable {base derived : List Element}

/-- If no key comes twice after the joining, then for each key the member of the derived collection
counts, or else that of the base. -/
theorem overrides_of_nodup (distinctBase : (slots base).Nodup) (distinctDerived : (slots derived).Nodup)
    (distinct : (slots (joinChildren base derived)).Nodup) :
    Overrides base derived (joinChildren base derived) where
  own key present := by
    obtain ⟨member, among, slot⟩ := mem_slots_iff.mp present
    have stands : Stands key member derived := stands_of_nodup distinctDerived among slot
    exact ⟨member, among, slot, (stands.joinChildren slot base).membersOf_eq slot distinct⟩
  inherited key present absent := by
    obtain ⟨member, among, slot⟩ := mem_slots_iff.mp present
    have whole : Stands key member (base ++ derived) :=
      (stands_of_nodup distinctBase among slot).append absent
    exact ⟨member, among, slot, (whole.joined slot).membersOf_eq slot distinct⟩

/-- A joined collection that begins with anything else than a member keeps both members of a key. -/
theorem not_overrides_of_shared {key : String} (ofBase : key ∈ slots base)
    (ofDerived : key ∈ slots derived) : ¬ Overrides base derived (base ++ derived) := by
  intro overrides
  obtain ⟨member, -, -, only⟩ := overrides.own key ofDerived
  obtain ⟨old, isOld, oldSlot⟩ := mem_slots_iff.mp ofBase
  obtain ⟨new, isNew, newSlot⟩ := mem_slots_iff.mp ofDerived
  have oldCounts : old ∈ membersOf key base := List.mem_filter.mpr ⟨isOld, decide_eq_true oldSlot⟩
  have newCounts : new ∈ membersOf key derived := List.mem_filter.mpr ⟨isNew, decide_eq_true newSlot⟩
  have two : 1 < (membersOf key (base ++ derived)).length := by
    have someOld := List.length_pos_of_mem oldCounts
    have someNew := List.length_pos_of_mem newCounts
    rw [membersOf_append, List.length_append]
    omega
  rw [only] at two
  simp at two

theorem overrides_joinChildren_iff (distinctBase : (slots base).Nodup)
    (distinctDerived : (slots derived).Nodup) :
    Overrides base derived (joinChildren base derived) ↔
      BeginsWithMember (base ++ derived) ∨ ∀ key ∈ slots base, key ∉ slots derived := by
  constructor
  · intro overrides
    by_cases begins : BeginsWithMember (base ++ derived)
    · exact .inl begins
    · rw [joinChildren_of_not_begins begins] at overrides
      exact .inr fun key ofBase ofDerived => not_overrides_of_shared ofBase ofDerived overrides
  · intro either
    refine overrides_of_nodup distinctBase distinctDerived ?_
    by_cases begins : BeginsWithMember (base ++ derived)
    · rw [joinChildren_of_begins begins]
      exact nodup_slots_uniqueMembers
    · have apart := either.resolve_left begins
      rw [joinChildren_of_not_begins begins, slots_append]
      refine List.nodup_append.mpr ⟨distinctBase, distinctDerived, ?_⟩
      rintro key ofBase other ofDerived rfl
      exact apart key ofBase ofDerived

end Overriding

/-- Of two elements with collections the derived one overrides the members of the base exactly if the
joined collection begins with a member or they have no key in common. In any other case the children of
both follow one another, and each shared key is there twice. -/
theorem overrides_iff {base derived : Element} {first second : List Element}
    (baseContent : base.content = .children first)
    (derivedContent : derived.content = .children second) (distinctBase : (slots first).Nodup)
    (distinctDerived : (slots second).Nodup) :
    (Overrides first second (resolveInheritance base derived).children ↔
      BeginsWithMember (first ++ second) ∨ ∀ key ∈ slots first, key ∉ slots second) ∧
    (¬ BeginsWithMember (first ++ second) →
      (resolveInheritance base derived).children = first ++ second) := by
  have joined : (resolveInheritance base derived).children = joinChildren first second := by
    simp only [resolveInheritance, Element.children, baseContent, derivedContent, combineContent]
  rw [joined]
  exact ⟨overrides_joinChildren_iff distinctBase distinctDerived, joinChildren_of_not_begins⟩

namespace LeadingMixin

/-! An object that is identified by a number, and a derived one that is identified by a text. -/

def keyNode (key : String) (kind : Kind) : Json :=
  .object [("element", .string "member"), ("content", .object
    [("key", .object [("element", .string "string"), ("content", .string key)]),
      ("value", .object [("element", .string kind.name)])])]

def keyed (key : String) (kind : Kind) : Element :=
  ⟨"member", .member ⟨"string", .literal (.string key), [], []⟩
    (some ⟨kind.name, .absent, [], []⟩), [], []⟩

def mixin : Element := ⟨"ref", .literal (.string "Mix"), [], []⟩

def mixinNode : Json := .object [("element", .string "ref"), ("content", .string "Mix")]

def base (children : List Element) : Element := ⟨"object", .children children, [], []⟩

def derived : Element := ⟨"Base", .children [keyed "id" .string], [], []⟩

/-- A mixin that follows is no obstacle. -/
theorem overrides_iff_following :
    (base [keyed "id" .number, mixin]).content = .children [keyed "id" .number, mixin] ∧
      derived.content = .children [keyed "id" .string] ∧
      (slots [keyed "id" .number, mixin]).Nodup ∧ (slots [keyed "id" .string]).Nodup ∧
      Overrides [keyed "id" .number, mixin] [keyed "id" .string]
        (resolveInheritance (base [keyed "id" .number, mixin]) derived).children := by
  have distinctBase : (slots [keyed "id" .number, mixin]).Nodup := by decide
  have distinctDerived : (slots [keyed "id" .string]).Nodup := by decide
  have begins : BeginsWithMember ([keyed "id" .number, mixin] ++ [keyed "id" .string]) := by decide
  have holds := @overrides_iff (base [keyed "id" .number, mixin]) derived _ _ rfl rfl distinctBase
    distinctDerived
  exact ⟨rfl, rfl, distinctBase, distinctDerived, holds.1.mpr (.inl begins)⟩

/-- Behind a leading mixin the number stays beside the text. -/
theorem both_stay_behind_mixin :
    (base [mixin, keyed "id" .number]).Parsed ∧ derived.Parsed ∧
      (slots [mixin, keyed "id" .number]).Nodup ∧ (slots [keyed "id" .string]).Nodup ∧
      membersOf "id" (resolveInheritance (base [mixin, keyed "id" .number]) derived).children =
        [keyed "id" .number, keyed "id" .string] ∧
      ¬ Overrides [mixin, keyed "id" .number] [keyed "id" .string]
        (resolveInheritance (base [mixin, keyed "id" .number]) derived).children := by
  have parsedBase : (base [mixin, keyed "id" .number]).Parsed :=
    ⟨.object [("element", .string "object"), ("content", .array [mixinNode, keyNode "id" .number])],
      by decide, rfl⟩
  have parsedDerived : derived.Parsed :=
    ⟨.object [("element", .string "Base"), ("content", .array [keyNode "id" .string])],
      by decide, rfl⟩
  have inBase : "id" ∈ slots [mixin, keyed "id" .number] := by decide
  have inDerived : "id" ∈ slots [keyed "id" .string] := by decide
  exact ⟨parsedBase, parsedDerived, by decide, by decide, rfl,
    not_overrides_of_shared inBase inDerived⟩

end LeadingMixin

/-! ## Three collections -/

section Order

variable {children base derived : List Element}

theorem nodup_slots_nil : (slots []).Nodup := List.nodup_nil

theorem uniqueMembers_uniqueMembers (children : List Element) :
    uniqueMembers (uniqueMembers children) = uniqueMembers children :=
  places_putMember.foldl_foldl nodup_slots_nil []

/-- Settling a part of a collection first changes nothing about the whole. -/
theorem uniqueMembers_append_left (first second : List Element) :
    uniqueMembers (uniqueMembers first ++ second) = uniqueMembers (first ++ second) := by
  calc uniqueMembers (uniqueMembers first ++ second)
      = second.foldl putMember (uniqueMembers (uniqueMembers first)) := List.foldl_append
    _ = second.foldl putMember (uniqueMembers first) := by rw [uniqueMembers_uniqueMembers]
    _ = uniqueMembers (first ++ second) := List.foldl_append.symm

theorem uniqueMembers_append_right (first second : List Element) :
    uniqueMembers (first ++ uniqueMembers second) = uniqueMembers (first ++ second) := by
  calc uniqueMembers (first ++ uniqueMembers second)
      = (uniqueMembers second).foldl putMember (uniqueMembers first) := List.foldl_append
    _ = second.foldl putMember (uniqueMembers first) :=
        places_putMember.foldl_foldl nodup_slots_nil _
    _ = uniqueMembers (first ++ second) := List.foldl_append.symm

theorem isMember_of_slot {child : Element} {key : String} (slot : child.slot? = some key) :
    child.isMember = true := by
  unfold Element.slot? at slot
  split at slot
  · assumption
  · cases slot

theorem beginsWithMember_foldl (begins : BeginsWithMember base) :
    BeginsWithMember (children.foldl putMember base) := by
  induction children generalizing base with
  | nil => exact begins
  | cons child rest ih =>
    cases base with
    | nil => cases begins
    | cons first others =>
      refine ih ?_
      rcases Places.same_or_other Element.slot? child first with ⟨key, slot, same⟩ | other
      · rw [places_putMember.replace slot same]
        exact isMember_of_slot slot
      · rw [places_putMember.pass other]
        exact begins

theorem BeginsWithMember.uniqueMembers (begins : BeginsWithMember children) :
    BeginsWithMember (uniqueMembers children) := by
  cases children with
  | nil => cases begins
  | cons first rest =>
    have placed : BeginsWithMember (putMember [] first) := by
      rw [places_putMember.nil]
      exact begins
    show BeginsWithMember (rest.foldl putMember (putMember [] first))
    exact beginsWithMember_foldl placed

theorem joinChildren_congr {first second other rest : List Element}
    (same : first ++ second = other ++ rest) : joinChildren first second = joinChildren other rest := by
  unfold joinChildren
  rw [same]

/-- What has been joined is settled again with what follows. -/
theorem joinChildren_joinChildren (first second third : List Element) :
    joinChildren (joinChildren first second) third = joinChildren first (second ++ third) := by
  by_cases begins : BeginsWithMember (first ++ second)
  · have inner : BeginsWithMember (uniqueMembers (first ++ second) ++ third) :=
      begins.uniqueMembers.append third
    have outer : BeginsWithMember (first ++ (second ++ third)) := by
      rw [← List.append_assoc]
      exact begins.append third
    rw [joinChildren_of_begins begins, joinChildren_of_begins inner, joinChildren_of_begins outer,
      uniqueMembers_append_left, List.append_assoc]
  · rw [joinChildren_of_not_begins begins]
    exact joinChildren_congr (List.append_assoc ..)

/-- A base that is empty or begins with a member settles what is joined to it. -/
theorem joinChildren_settles (begins : base = [] ∨ BeginsWithMember base) (first second : List Element) :
    joinChildren base (joinChildren first second) = joinChildren base (first ++ second) := by
  rcases begins with rfl | begins
  · calc joinChildren [] (joinChildren first second)
        = joinChildren (joinChildren first second) [] := joinChildren_congr (List.append_nil _).symm
      _ = joinChildren first (second ++ []) := joinChildren_joinChildren ..
      _ = joinChildren [] (first ++ second) := joinChildren_congr (by simp)
  · by_cases later : BeginsWithMember (first ++ second)
    · rw [joinChildren_of_begins later, joinChildren_of_begins (begins.append _),
        joinChildren_of_begins (begins.append _), uniqueMembers_append_right]
    · rw [joinChildren_of_not_begins later]

theorem combineContent_assoc {first second third : Content}
    (begins : first = .absent ∨ ∃ items, first = .children items ∧ (items = [] ∨ BeginsWithMember items))
    (collects : second = .absent ∨ ∃ items, second = .children items)
    (collectsToo : third = .absent ∨ ∃ items, third = .children items) :
    combineContent (combineContent first second) third =
      combineContent first (combineContent second third) := by
  have keeps : ∀ content, combineContent content .absent = content := by
    intro content
    cases content <;> rfl
  rcases collectsToo with rfl | ⟨last, rfl⟩
  · rw [keeps, keeps]
  rcases collects with rfl | ⟨middle, rfl⟩
  · rw [keeps]
    rfl
  rcases begins with rfl | ⟨items, rfl, begins⟩
  · rfl
  · have joined : joinChildren (joinChildren items middle) last =
        joinChildren items (joinChildren middle last) := by
      rw [joinChildren_joinChildren, joinChildren_settles begins]
    exact congrArg Content.children joined

end Order

/-- Of three elements it does not matter which two are laid over one another first, provided that the
content of the first is missing, empty or begins with a member and that the others collect children or
have no content: name, content and annotations are the same, in the same order. -/
theorem resolveInheritance_assoc {root base derived : Element} (parsed : base.Parsed)
    (begins : root.content = .absent ∨
      ∃ items, root.content = .children items ∧ (items = [] ∨ BeginsWithMember items))
    (collects : base.content = .absent ∨ ∃ items, base.content = .children items)
    (collectsToo : derived.content = .absent ∨ ∃ items, derived.content = .children items) :
    resolveInheritance (resolveInheritance root base) derived =
      resolveInheritance root (resolveInheritance base derived) := by
  have distinct := parsed.annotationsDistinct
  have content := combineContent_assoc begins collects collectsToo
  have metadata := Mapping.overwrite_assoc root.metadata distinct.metadata derived.metadata
  have attributes := Mapping.overwrite_assoc root.attributes distinct.attributes derived.attributes
  simp only [resolveInheritance, content, metadata, attributes]

namespace LeadingMixin

def described (text : String) (children : List Element) : Element :=
  { base children with metadata := [("description", .string text)] }

/-- A mixin that leads in between is no obstacle: the text keeps the place of the first number. -/
theorem resolveInheritance_assoc_between :
    (described "flag" [mixin, keyed "id" .boolean]).Parsed ∧
      BeginsWithMember [keyed "id" .number] ∧
      resolveInheritance (resolveInheritance (described "number" [keyed "id" .number])
          (described "flag" [mixin, keyed "id" .boolean])) derived =
        resolveInheritance (described "number" [keyed "id" .number])
          (resolveInheritance (described "flag" [mixin, keyed "id" .boolean]) derived) ∧
      (resolveInheritance (described "number" [keyed "id" .number])
          (resolveInheritance (described "flag" [mixin, keyed "id" .boolean]) derived)).children =
        [keyed "id" .string, mixin] := by
  have parsed : (described "flag" [mixin, keyed "id" .boolean]).Parsed :=
    ⟨.object [("element", .string "object"), ("meta", .object [("description", .string "flag")]),
      ("content", .array [mixinNode, keyNode "id" .boolean])], by decide, rfl⟩
  have begins : BeginsWithMember [keyed "id" .number] := by decide
  have either := @resolveInheritance_assoc (described "number" [keyed "id" .number]) _ derived parsed
    (.inr ⟨_, rfl, .inr begins⟩) (.inr ⟨_, rfl⟩) (.inr ⟨_, rfl⟩)
  exact ⟨parsed, begins, either, rfl⟩

end LeadingMixin

end Mson
