import Mson.Mixin
import Mson.Proofs.Inheritance
import Mson.Proofs.Reachability

/-!
# Expansion of mixins

Expansion works through a list of pending members and puts what a mixin includes in front of the ones
that wait. `Flattens` says without a list of pending members what comes out: of every mixin the
flattened children of its type, of every other member itself, one after the other. Both are the same
relation, whatever the types are (`exists_expandWithin_iff_flattens`). The pending list may get longer
with each step, so what comes to an end is not the list: where no cyclic type is reachable from an
element, the types that its mixins include are used up (`expansion_flattens`).
-/
namespace Mson

variable {types : SymbolTable}

/-! ## The list of pending members -/

section Pending

variable {steps more : Nat} {member : Element} {rest members expanded : List Element}

@[simp] theorem expandWithin_nil (types : SymbolTable) (steps : Nat) :
    expandWithin types steps [] = some [] := by
  cases steps <;> rfl

theorem expandWithin_cons_reference (isReference : member.isReference = true) :
    expandWithin types (steps + 1) (member :: rest) =
      expandWithin types steps (includedChildren types member ++ rest) := by
  rw [expandWithin, if_pos isReference]

theorem expandWithin_cons_other (other : ¬ member.isReference = true) :
    expandWithin types (steps + 1) (member :: rest) =
      (expandWithin types steps rest).map (member :: ·) := by
  rw [expandWithin, if_neg other]

/-- Another table gives the same where it includes the same, and so do further steps. The property
holds of the pending members at every step. -/
theorem expandWithin_of_agree {others : SymbolTable} {property : Element → Prop}
    (same : ∀ reference : Element, property reference → reference.isReference = true →
      includedChildren others reference = includedChildren types reference)
    (kept : ∀ reference : Element, property reference → reference.isReference = true →
      ∀ child ∈ includedChildren types reference, property child)
    (enough : steps ≤ more) (each : ∀ member ∈ members, property member)
    (success : expandWithin types steps members = some expanded) :
    expandWithin others more members = some expanded := by
  induction steps generalizing more members expanded with
  | zero =>
    cases members with
    | nil => cases success; exact expandWithin_nil ..
    | cons => cases success
  | succ steps ih =>
    cases members with
    | nil => cases success; exact expandWithin_nil ..
    | cons first rest =>
      obtain ⟨more, rfl⟩ : ∃ fewer, more = fewer + 1 := ⟨more - 1, by omega⟩
      obtain ⟨here, later⟩ := List.forall_mem_cons.mp each
      by_cases isReference : first.isReference = true
      · rw [expandWithin_cons_reference isReference] at success ⊢
        rw [same first here isReference]
        refine ih (by omega) (fun member among => ?_) success
        exact (List.mem_append.mp among).elim (kept first here isReference member) (later member)
      · rw [expandWithin_cons_other isReference, Option.map_eq_some_iff] at success
        obtain ⟨others, success, rfl⟩ := success
        rw [expandWithin_cons_other isReference, ih (by omega) later success]
        rfl

theorem expandWithin_mono (enough : steps ≤ more)
    (success : expandWithin types steps members = some expanded) :
    expandWithin types more members = some expanded :=
  expandWithin_of_agree (fun _ _ _ => rfl) (fun _ _ _ _ _ => trivial) enough
    (fun _ _ => trivial) success

theorem expandWithin_unique {others : List Element}
    (first : expandWithin types steps members = some expanded)
    (second : expandWithin types more members = some others) : expanded = others := by
  have longer := expandWithin_mono (Nat.le_max_left steps more) first
  rw [expandWithin_mono (Nat.le_max_right steps more) second] at longer
  exact (Option.some.inj longer).symm

/-- Expanding two lists one after the other takes the steps of both. -/
theorem expandWithin_append {first second expandedFirst expandedSecond : List Element}
    (one : expandWithin types steps first = some expandedFirst)
    (two : expandWithin types more second = some expandedSecond) :
    expandWithin types (steps + more) (first ++ second) = some (expandedFirst ++ expandedSecond) := by
  induction steps generalizing first expandedFirst with
  | zero =>
    cases first with
    | nil =>
      cases one
      simpa using two
    | cons => cases one
  | succ steps ih =>
    cases first with
    | nil =>
      cases one
      exact expandWithin_mono (by omega) two
    | cons member rest =>
      rw [Nat.add_right_comm, List.cons_append]
      by_cases isReference : member.isReference = true
      · rw [expandWithin_cons_reference isReference] at one ⊢
        rw [← List.append_assoc]
        exact ih one
      · rw [expandWithin_cons_other isReference, Option.map_eq_some_iff] at one
        obtain ⟨expandedRest, one, rfl⟩ := one
        rw [expandWithin_cons_other isReference, ih one]
        rfl

/-- Both parts of a list are expanded where the list is. -/
theorem exists_of_expandWithin_append {first second : List Element}
    (success : expandWithin types steps (first ++ second) = some expanded) :
    ∃ earlier later, expandWithin types steps first = some earlier ∧
      expandWithin types steps second = some later ∧ expanded = earlier ++ later := by
  induction steps generalizing first expanded with
  | zero =>
    cases first with
    | nil => exact ⟨[], expanded, rfl, success, rfl⟩
    | cons => cases success
  | succ steps ih =>
    cases first with
    | nil => exact ⟨[], expanded, rfl, success, rfl⟩
    | cons member rest =>
      rw [List.cons_append] at success
      by_cases isReference : member.isReference = true
      · rw [expandWithin_cons_reference isReference, ← List.append_assoc] at success
        obtain ⟨earlier, later, one, two, rfl⟩ := ih success
        refine ⟨earlier, later, ?_, expandWithin_mono (Nat.le_succ steps) two, rfl⟩
        rw [expandWithin_cons_reference isReference, one]
      · rw [expandWithin_cons_other isReference, Option.map_eq_some_iff] at success
        obtain ⟨others, success, rfl⟩ := success
        obtain ⟨earlier, later, one, two, rfl⟩ := ih success
        refine ⟨member :: earlier, later, ?_, expandWithin_mono (Nat.le_succ steps) two, rfl⟩
        rw [expandWithin_cons_other isReference, one]
        rfl

theorem expandWithin_single (other : ¬ member.isReference = true)
    (success : expandWithin types steps [member] = some expanded) : expanded = [member] := by
  cases steps with
  | zero => cases success
  | succ steps =>
    rw [expandWithin_cons_other other, expandWithin_nil] at success
    cases success
    rfl

theorem includedChildren_of_target {reference declaration : Element} {name : String}
    (target : reference.target? = some name)
    (declared : Mapping.get? types name = some declaration) :
    includedChildren types reference = declaration.children := by
  simp only [includedChildren, target, declared]

theorem includedChildren_of_undeclared {reference : Element}
    (undeclared : ∀ name, reference.target? = some name → Mapping.get? types name = none) :
    includedChildren types reference = [] := by
  unfold includedChildren
  split
  · rename_i name target
    rw [undeclared name target]
  · rfl

theorem mem_includedChildren {reference child : Element}
    (included : child ∈ includedChildren types reference) :
    ∃ name declaration, reference.target? = some name ∧
      Mapping.get? types name = some declaration ∧ child ∈ declaration.children := by
  unfold includedChildren at included
  split at included
  · rename_i name target
    split at included
    · rename_i declaration found
      exact ⟨name, declaration, target, found, included⟩
    · cases included
  · cases included

theorem expandWithin_mixin (isReference : member.isReference = true)
    (success : expandWithin types steps [member] = some expanded) :
    expandWithin types steps (includedChildren types member) = some expanded := by
  cases steps with
  | zero => cases success
  | succ steps =>
    rw [expandWithin_cons_reference isReference, List.append_nil] at success
    exact expandWithin_mono (Nat.le_succ steps) success

end Pending

/-! ## Flattening -/

/-- What a list of members comes to if every mixin stands for the flattened children of its type. -/
inductive Flattens (types : SymbolTable) : List Element → List Element → Prop
  | nil : Flattens types [] []
  | member {member : Element} {rest others : List Element} (other : ¬ member.isReference = true)
      (later : Flattens types rest others) : Flattens types (member :: rest) (member :: others)
  | mixin {reference declaration : Element} {name : String} {rest included others : List Element}
      (isReference : reference.isReference = true) (target : reference.target? = some name)
      (declared : Mapping.get? types name = some declaration)
      (inner : Flattens types declaration.children included)
      (later : Flattens types rest others) : Flattens types (reference :: rest) (included ++ others)
  /-- A reference without a declared target stands for nothing. -/
  | unresolved {reference : Element} {rest others : List Element}
      (isReference : reference.isReference = true)
      (undeclared : ∀ name, reference.target? = some name → Mapping.get? types name = none)
      (later : Flattens types rest others) : Flattens types (reference :: rest) others

namespace Flattens

variable {member : Element} {rest members first second flat : List Element}

theorem cons_other_iff (other : ¬ member.isReference = true) :
    Flattens types (member :: rest) flat ↔
      ∃ others, Flattens types rest others ∧ flat = member :: others := by
  constructor
  · intro flattens
    cases flattens with
    | member _ later => exact ⟨_, later, rfl⟩
    | mixin isReference => exact absurd isReference other
    | unresolved isReference => exact absurd isReference other
  · rintro ⟨others, later, rfl⟩
    exact .member other later

theorem cons_reference_iff (isReference : member.isReference = true) :
    Flattens types (member :: rest) flat ↔
      ∃ included others, Flattens types (includedChildren types member) included ∧
        Flattens types rest others ∧ flat = included ++ others := by
  constructor
  · intro flattens
    cases flattens with
    | member other => exact absurd isReference other
    | mixin _ target declared inner later =>
      exact ⟨_, _, includedChildren_of_target target declared ▸ inner, later, rfl⟩
    | unresolved _ undeclared later =>
      refine ⟨[], flat, ?_, later, rfl⟩
      rw [includedChildren_of_undeclared undeclared]
      exact .nil
  · rintro ⟨included, others, inner, later, rfl⟩
    unfold includedChildren at inner
    split at inner
    · rename_i name target
      split at inner
      · rename_i declaration declared
        exact .mixin isReference target declared inner later
      · rename_i undeclared
        cases inner
        refine .unresolved isReference (fun other found => ?_) later
        rw [target] at found
        cases found
        exact undeclared
    · rename_i noTarget
      cases inner
      refine .unresolved isReference (fun name target => ?_) later
      rw [noTarget] at target
      cases target

theorem append_iff :
    Flattens types (first ++ second) flat ↔
      ∃ earlier later, Flattens types first earlier ∧ Flattens types second later ∧
        flat = earlier ++ later := by
  induction first generalizing flat with
  | nil =>
    constructor
    · exact fun flattens => ⟨[], flat, .nil, flattens, rfl⟩
    · rintro ⟨earlier, later, nothing, flattens, rfl⟩
      cases nothing
      exact flattens
  | cons member rest ih =>
    rw [List.cons_append]
    by_cases isReference : member.isReference = true
    · simp only [cons_reference_iff isReference, ih]
      constructor
      · rintro ⟨included, _, inner, ⟨earlier, later, one, two, rfl⟩, rfl⟩
        exact ⟨included ++ earlier, later, ⟨included, earlier, inner, one, rfl⟩, two,
          (List.append_assoc ..).symm⟩
      · rintro ⟨_, later, ⟨included, earlier, inner, one, rfl⟩, two, rfl⟩
        exact ⟨included, earlier ++ later, inner, ⟨earlier, later, one, two, rfl⟩,
          List.append_assoc ..⟩
    · simp only [cons_other_iff isReference, ih]
      constructor
      · rintro ⟨_, ⟨earlier, later, one, two, rfl⟩, rfl⟩
        exact ⟨member :: earlier, later, ⟨earlier, one, rfl⟩, two, rfl⟩
      · rintro ⟨_, later, ⟨earlier, one, rfl⟩, two, rfl⟩
        exact ⟨earlier ++ later, ⟨earlier, later, one, two, rfl⟩, rfl⟩

/-- No reference is left. -/
theorem not_isReference (flattens : Flattens types members flat) :
    ∀ member ∈ flat, ¬ member.isReference = true := by
  induction flattens with
  | nil => exact fun _ impossible => absurd impossible List.not_mem_nil
  | member other _ ih => exact List.forall_mem_cons.mpr ⟨other, ih⟩
  | mixin _ _ _ _ _ inner later =>
    exact fun member among => (List.mem_append.mp among).elim (inner member) (later member)
  | unresolved _ _ _ ih => exact ih

/-- Without references a list is flat. -/
theorem of_not_isReference (plain : ∀ member ∈ members, ¬ member.isReference = true) :
    Flattens types members members := by
  induction members with
  | nil => exact .nil
  | cons member rest ih =>
    obtain ⟨other, later⟩ := List.forall_mem_cons.mp plain
    exact .member other (ih later)

theorem exists_expandWithin (flattens : Flattens types members flat) :
    ∃ steps, expandWithin types steps members = some flat := by
  induction flattens with
  | nil => exact ⟨0, rfl⟩
  | member other _ ih =>
    obtain ⟨steps, success⟩ := ih
    exact ⟨steps + 1, by rw [expandWithin_cons_other other, success]; rfl⟩
  | @mixin reference declaration name rest included others isReference target declared _ _ inner
      later =>
    obtain ⟨steps, success⟩ := inner
    obtain ⟨more, successLater⟩ := later
    refine ⟨steps + more + 1, ?_⟩
    rw [expandWithin_cons_reference isReference, includedChildren_of_target target declared]
    exact expandWithin_append success successLater
  | unresolved isReference undeclared _ ih =>
    obtain ⟨steps, success⟩ := ih
    refine ⟨steps + 1, ?_⟩
    rw [expandWithin_cons_reference isReference, includedChildren_of_undeclared undeclared]
    exact success

theorem unique {other : List Element} (one : Flattens types members flat)
    (two : Flattens types members other) : flat = other := by
  obtain ⟨steps, success⟩ := one.exists_expandWithin
  obtain ⟨more, successToo⟩ := two.exists_expandWithin
  exact expandWithin_unique success successToo

end Flattens

/-- What the pending list comes to is flat: of a list with a mixin's children in front, those come
first. -/
theorem flattens_of_expandWithin {steps : Nat} {members expanded : List Element}
    (success : expandWithin types steps members = some expanded) :
    Flattens types members expanded := by
  induction steps generalizing members expanded with
  | zero =>
    cases members with
    | nil => cases success; exact .nil
    | cons => cases success
  | succ steps ih =>
    cases members with
    | nil => cases success; exact .nil
    | cons member rest =>
      by_cases isReference : member.isReference = true
      · rw [expandWithin_cons_reference isReference] at success
        rw [Flattens.cons_reference_iff isReference]
        exact Flattens.append_iff.mp (ih success)
      · rw [expandWithin_cons_other isReference, Option.map_eq_some_iff] at success
        obtain ⟨others, success, rfl⟩ := success
        exact .member isReference (ih success)

/-- Whether expansion comes to its end with the given members. -/
def Expands (types : SymbolTable) (members expanded : List Element) : Prop :=
  ∃ bound, ∀ steps, bound ≤ steps → expandWithin types steps members = some expanded

theorem Expands.of_expandWithin {steps : Nat} {members expanded : List Element}
    (success : expandWithin types steps members = some expanded) : Expands types members expanded :=
  ⟨steps, fun _ enough => expandWithin_mono enough success⟩

theorem Expands.unique {members expanded others : List Element}
    (one : Expands types members expanded) (other : Expands types members others) :
    expanded = others := by
  obtain ⟨bound, success⟩ := one
  obtain ⟨limit, same⟩ := other
  exact expandWithin_unique (success bound (Nat.le_refl bound)) (same limit (Nat.le_refl limit))

/-- Expansion comes to an end exactly where flattening does, and with the same members. -/
theorem expands_iff_flattens {members flat : List Element} :
    Expands types members flat ↔ Flattens types members flat := by
  constructor
  · rintro ⟨bound, success⟩
    exact flattens_of_expandWithin (success bound (Nat.le_refl bound))
  · intro flattens
    obtain ⟨bound, success⟩ := flattens.exists_expandWithin
    exact .of_expandWithin success

/-! ## Where flattening comes to an end -/

theorem exists_flattens_of_included {members : List Element}
    (each : ∀ reference ∈ members, reference.isReference = true →
      ∃ included, Flattens types (includedChildren types reference) included) :
    ∃ flat, Flattens types members flat := by
  induction members with
  | nil => exact ⟨[], .nil⟩
  | cons member rest ih =>
    obtain ⟨here, later⟩ := List.forall_mem_cons.mp each
    obtain ⟨others, flattens⟩ := ih later
    by_cases isReference : member.isReference = true
    · obtain ⟨included, inner⟩ := here isReference
      exact ⟨included ++ others,
        (Flattens.cons_reference_iff isReference).mpr ⟨included, others, inner, flattens, rfl⟩⟩
    · exact ⟨member :: others, .member isReference flattens⟩

/-- The types that the mixins of a parsed element include are among those that it mentions. -/
theorem Element.WellShaped.mentions_target {element reference : Element} {name : String}
    (shaped : element.WellShaped) (child : reference ∈ element.children)
    (isReference : reference.isReference = true) (target : reference.target? = some name)
    (declared : name ∈ Mapping.names types) : name ∈ element.mentions types := by
  have hasChildren : element.children ≠ [] := List.ne_nil_of_mem child
  have noReference : element.kind ≠ some .reference := fun kind =>
    hasChildren (shaped.childless (.inr kind))
  have noMember : element.kind ≠ some .member := fun kind =>
    hasChildren (shaped.childless (.inl kind))
  have kind : reference.kind = some .reference := of_decide_eq_true isReference
  rw [Element.mem_mentions_iff noReference noMember]
  refine .inr ⟨reference, child, ?_⟩
  rw [Element.mentions_of_reference kind, mem_targetMention, ← Element.target?_eq_some_iff]
  exact ⟨target, declared⟩

/-- The children of an element can be flattened if those of the types it mentions can. -/
theorem exists_flattens_children {element : Element} (shaped : element.WellShaped)
    (mentioned : ∀ name ∈ element.mentions types, ∀ declaration,
      Mapping.get? types name = some declaration →
        ∃ flat, Flattens types declaration.children flat) :
    ∃ flat, Flattens types element.children flat := by
  refine exists_flattens_of_included fun reference child isReference => ?_
  by_cases nothing : includedChildren types reference = []
  · rw [nothing]
    exact ⟨[], .nil⟩
  · obtain ⟨included, isIncluded⟩ := List.exists_mem_of_ne_nil _ nothing
    obtain ⟨name, declaration, target, declared, -⟩ := mem_includedChildren isIncluded
    rw [includedChildren_of_target target declared]
    have isMention := shaped.mentions_target child isReference target
      (Mapping.mem_names_of_get? declared)
    exact mentioned name isMention declaration declared

/-- Where following mentions comes to an end, so does flattening. -/
theorem exists_flattens_of_acc (parsed : types.Parsed) {name : String}
    (acc : Acc (fun next previous => next ∈ successors types previous) name) :
    ∀ declaration, Mapping.get? types name = some declaration →
      ∃ flat, Flattens types declaration.children flat := by
  induction acc with
  | intro name _ ih =>
    intro declaration declared
    rw [successors_of_get? declared] at ih
    exact exists_flattens_children (parsed.wellShaped declared) ih

/-- Where no cyclic type is reachable, expansion comes to an end with the flattened children, which are
the only ones. They hold no reference and stay as they are when they are expanded again, and parts of a
list are expanded one after the other. -/
theorem expansion_flattens {element : Element} (parsedTypes : types.Parsed)
    (parsed : element.Parsed)
    (acyclic : ∀ name ∈ reachableNames types element, name ∉ cyclicNames types) :
    ∃ flat, (∀ other, Flattens types element.children other ↔ other = flat) ∧
      Expands types element.children flat ∧
      (∀ member ∈ flat, ¬ member.isReference = true) ∧ Expands types flat flat ∧
      ∀ first second whole, Expands types (first ++ second) whole ↔
        ∃ earlier later, Expands types first earlier ∧ Expands types second later ∧
          whole = earlier ++ later := by
  obtain ⟨flat, flattens⟩ : ∃ flat, Flattens types element.children flat :=
    exists_flattens_children parsed.wellShaped fun name mentioned =>
      exists_flattens_of_acc parsedTypes
        (acc_mentioned_of_acyclic acyclic (mem_reachableNames_of_mentions mentioned))
  have plain := flattens.not_isReference
  refine ⟨flat, fun other => ⟨fun same => same.unique flattens, ?_⟩,
    expands_iff_flattens.mpr flattens, plain,
    expands_iff_flattens.mpr (.of_not_isReference plain), fun first second whole => ?_⟩
  · rintro rfl
    exact flattens
  · simp only [expands_iff_flattens]
    exact Flattens.append_iff

namespace NestedMixins

/-! An object that includes a type, which includes another one at its end. -/

def member (key : String) : Element :=
  ⟨"member", .member ⟨"string", .literal (.string key), [], []⟩ none, [], []⟩

def mixin (name : String) : Element := ⟨"ref", .literal (.string name), [], []⟩

def outer : Element := ⟨"object", .children [member "a", mixin "Inner"], [], []⟩

def inner : Element := ⟨"object", .children [member "b"], [], []⟩

def table : SymbolTable := [("Outer", outer), ("Inner", inner)]

def element : Element :=
  ⟨"object", .children [mixin "Outer", mixin "Unknown", member "c"], [], []⟩

def memberNode (key : String) : Json :=
  .object [("element", .string "member"),
    ("content", .object [("key", .object [("element", .string "string"), ("content", .string key)])])]

def mixinNode (name : String) : Json :=
  .object [("element", .string "ref"), ("content", .string name)]

def objectNode (items : List Json) : Json :=
  .object [("element", .string "object"), ("content", .array items)]

theorem expansion_flattens_nested :
    table.Parsed ∧ element.Parsed ∧
      (∀ name ∈ reachableNames table element, name ∉ cyclicNames table) ∧
      Expands table element.children [member "a", member "b", member "c"] ∧
      ∀ other, Flattens table element.children other ↔
        other = [member "a", member "b", member "c"] := by
  have parsedTable : table.Parsed := by
    rintro entry (_ | ⟨_, _ | ⟨_, ⟨⟩⟩⟩)
    · exact ⟨objectNode [memberNode "a", mixinNode "Inner"], by decide, rfl⟩
    · exact ⟨objectNode [memberNode "b"], by decide, rfl⟩
  have parsed : element.Parsed :=
    ⟨objectNode [mixinNode "Outer", mixinNode "Unknown", memberNode "c"], by decide, rfl⟩
  have ofInner : successors table "Inner" = [] := by decide
  have acyclic : ∀ name ∈ reachableNames table element, name ∉ cyclicNames table := by
    intro name _ cyclic
    obtain ⟨declaration, declared, back⟩ := mem_cyclicNames_iff.mp cyclic
    rcases declared with _ | ⟨_, _ | ⟨_, ⟨⟩⟩⟩
    · rw [reachableNames_of_single (by decide) (by decide) ofInner] at back
      revert back
      decide
    · change "Inner" ∈ reachFrom table [] (successors table "Inner") at back
      rw [ofInner, reachFrom_nil] at back
      cases back
  obtain ⟨flat, only, expands, -⟩ := expansion_flattens parsedTable parsed acyclic
  have flattens : Flattens table element.children [member "a", member "b", member "c"] :=
    flattens_of_expandWithin (show expandWithin table 6 _ = some _ from rfl)
  cases (only _).mp flattens
  exact ⟨parsedTable, parsed, acyclic, expands, only⟩

end NestedMixins

end Mson
