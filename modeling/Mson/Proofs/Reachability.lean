import Mson.Proofs.Mapping
import Mson.Reachability

/-!
# Reachable types

`reachFrom` collects exactly the names that a path of mentions leads to, `ReachedFrom` being the
paths. A type is cyclic if such a path leads from its declaration back to its name. Where no cyclic
type is reachable, going from a name to one that its declaration mentions cannot go on for ever
(`acc_mentioned_of_acyclic`): each step leaves fewer names reachable.
-/
namespace Mson

variable {types : SymbolTable}

/-! ## Mentions -/

section Mentions

theorem mem_mentionsOfAll {items : List Element} {name : String} :
    name ∈ mentionsOfAll types items ↔ ∃ item ∈ items, name ∈ item.mentions types := by
  induction items with
  | nil => simp [mentionsOfAll]
  | cons item rest ih => simp [mentionsOfAll, ih]

theorem mem_targetMention {content : Content} {name : String} :
    name ∈ content.targetMention types ↔
      content = .literal (.string name) ∧ name ∈ Mapping.names types := by
  unfold Content.targetMention
  split
  · rename_i other
    by_cases declared : Mapping.has types other = true
    · rw [if_pos declared, List.mem_singleton]
      constructor
      · rintro rfl
        exact ⟨rfl, Mapping.has_iff.mp declared⟩
      · rintro ⟨same, -⟩
        cases same
        rfl
    · rw [if_neg declared]
      constructor
      · exact fun absurd_ => absurd absurd_ List.not_mem_nil
      · rintro ⟨same, there⟩
        cases same
        exact absurd (Mapping.has_iff.mpr there) declared
  · rename_i noTarget
    constructor
    · exact fun absurd_ => absurd absurd_ List.not_mem_nil
    · rintro ⟨same, -⟩
      exact absurd same (noTarget name)

namespace Element

theorem mentions_eq (element : Element) :
    element.mentions types =
      match element.kind with
      | some .reference => element.content.targetMention types
      | some .member => element.content.valueMentions types
      | some _ => element.content.childMentions types
      | none =>
          if Mapping.has types element.name then element.name :: element.content.childMentions types
          else element.content.childMentions types := by
  cases element
  rfl

theorem mentions_of_reference {element : Element} (kind : element.kind = some .reference) :
    element.mentions types = element.content.targetMention types := by
  rw [mentions_eq, kind]

theorem mentions_of_member {element : Element} (kind : element.kind = some .member) :
    element.mentions types = element.content.valueMentions types := by
  rw [mentions_eq, kind]

/-- An element of any other kind mentions what its children mention, and a declared name that it is
named after. -/
theorem mem_mentions_iff {element : Element} {name : String}
    (noReference : element.kind ≠ some .reference) (noMember : element.kind ≠ some .member) :
    name ∈ element.mentions types ↔
      (element.kind = none ∧ name = element.name ∧ name ∈ Mapping.names types) ∨
        ∃ child ∈ element.children, name ∈ child.mentions types := by
  have below : name ∈ element.content.childMentions types ↔
      ∃ child ∈ element.children, name ∈ child.mentions types := by
    unfold Element.children
    cases element.content <;> simp [Content.childMentions, mem_mentionsOfAll]
  rw [← below, mentions_eq]
  split
  · exact absurd ‹_› noReference
  · exact absurd ‹_› noMember
  · simp [*]
  · rename_i named
    by_cases declared : Mapping.has types element.name = true
    · rw [if_pos declared, List.mem_cons]
      have there := Mapping.has_iff.mp declared
      constructor
      · rintro (rfl | mentioned)
        · exact .inl ⟨named, rfl, there⟩
        · exact .inr mentioned
      · rintro (⟨-, rfl, -⟩ | mentioned)
        · exact .inl rfl
        · exact .inr mentioned
    · rw [if_neg declared]
      constructor
      · exact .inr
      · rintro (⟨-, rfl, there⟩ | mentioned)
        · exact absurd (Mapping.has_iff.mpr there) declared
        · exact mentioned

end Element

mutual

/-- Only declared names are mentioned. -/
theorem Element.declared_of_mem_mentions :
    ∀ (element : Element) (name : String), name ∈ element.mentions types →
      name ∈ Mapping.names types
  | ⟨ownName, content, metadata, attributes⟩, name, mentioned => by
    rw [Element.mentions_eq] at mentioned
    split at mentioned
    · exact (mem_targetMention.mp mentioned).2
    · exact Content.declared_of_mem_valueMentions content name mentioned
    · exact Content.declared_of_mem_childMentions content name mentioned
    · split at mentioned
      · rename_i declared
        rcases List.mem_cons.mp mentioned with rfl | below
        · exact Mapping.has_iff.mp declared
        · exact Content.declared_of_mem_childMentions content name below
      · exact Content.declared_of_mem_childMentions content name mentioned

theorem Content.declared_of_mem_valueMentions :
    ∀ (content : Content) (name : String), name ∈ content.valueMentions types →
      name ∈ Mapping.names types
  | .member _ (some value), name, mentioned => value.declared_of_mem_mentions name mentioned
  | .member _ none, _, mentioned => by cases mentioned
  | .absent, _, mentioned => by cases mentioned
  | .children _, _, mentioned => by cases mentioned
  | .literal _, _, mentioned => by cases mentioned

theorem Content.declared_of_mem_childMentions :
    ∀ (content : Content) (name : String), name ∈ content.childMentions types →
      name ∈ Mapping.names types
  | .children items, name, mentioned => declared_of_mem_mentionsOfAll items name mentioned
  | .member _ _, _, mentioned => by cases mentioned
  | .absent, _, mentioned => by cases mentioned
  | .literal _, _, mentioned => by cases mentioned

theorem declared_of_mem_mentionsOfAll :
    ∀ (items : List Element) (name : String), name ∈ mentionsOfAll types items →
      name ∈ Mapping.names types
  | [], _, mentioned => by cases mentioned
  | item :: items, name, mentioned => by
    rw [mentionsOfAll, List.mem_append] at mentioned
    rcases mentioned with here | later
    · exact item.declared_of_mem_mentions name here
    · exact declared_of_mem_mentionsOfAll items name later

end

theorem successors_of_get? {name : String} {element : Element}
    (found : Mapping.get? types name = some element) :
    successors types name = element.mentions types := by
  simp only [successors, found]

theorem declared_of_mem_successors {name next : String} (follows : next ∈ successors types name) :
    next ∈ Mapping.names types := by
  unfold successors at follows
  split at follows
  · rename_i element found
    exact element.declared_of_mem_mentions next follows
  · cases follows

end Mentions

/-! ## Paths -/

/-- The declared names that a path of mentions leads to from one of the given names. -/
inductive ReachedFrom (types : SymbolTable) (seeds : List String) : String → Prop
  | seed {name : String} (given : name ∈ seeds) (declared : name ∈ Mapping.names types) :
      ReachedFrom types seeds name
  | follow {name next : String} (reached : ReachedFrom types seeds name)
      (mentioned : next ∈ successors types name) : ReachedFrom types seeds next

theorem ReachedFrom.declared {seeds : List String} {name : String}
    (reached : ReachedFrom types seeds name) : name ∈ Mapping.names types := by
  cases reached with
  | seed _ declared => exact declared
  | follow _ mentioned => exact declared_of_mem_successors mentioned

theorem ReachedFrom.trans {seeds : List String} {name later : String}
    (first : ReachedFrom types seeds name)
    (second : ReachedFrom types (successors types name) later) : ReachedFrom types seeds later := by
  induction second with
  | seed given _ => exact first.follow given
  | follow _ mentioned ih => exact ih.follow mentioned

theorem reachFrom_nil (reached : List String) : reachFrom types reached [] = reached := by
  rw [reachFrom]

theorem reachFrom_cons_fresh {reached rest : List String} {name : String} (new : name ∉ reached)
    (declared : name ∈ Mapping.names types) :
    reachFrom types reached (name :: rest) =
      reachFrom types (name :: reached) (successors types name ++ rest) := by
  rw [reachFrom, dif_pos ⟨new, declared⟩]

/-- What holds of the names reached so far and of the pending ones, and is handed on by mentions,
holds of all that is collected. -/
theorem reachFrom_induction {property : String → Prop}
    (follows : ∀ name next, property name → next ∈ successors types name → property next)
    {reached pending : List String} (before : ∀ name ∈ reached, property name)
    (given : ∀ name ∈ pending, name ∈ Mapping.names types → property name) :
    ∀ name ∈ reachFrom types reached pending, property name := by
  fun_induction reachFrom types reached pending with
  | case1 reached => exact before
  | case2 reached first rest fresh ih =>
    have firstHolds := given first List.mem_cons_self fresh.2
    apply ih
    · intro name member
      rcases List.mem_cons.mp member with rfl | older
      · exact firstHolds
      · exact before name older
    · intro name member declared
      rcases List.mem_append.mp member with mentioned | later
      · exact follows first name firstHolds mentioned
      · exact given name (List.mem_cons_of_mem _ later) declared
  | case3 reached first rest _ ih =>
    exact ih before fun name member => given name (List.mem_cons_of_mem _ member)

theorem subset_reachFrom {reached pending : List String} {name : String}
    (member : name ∈ reached ∨ name ∈ pending ∧ name ∈ Mapping.names types) :
    name ∈ reachFrom types reached pending := by
  fun_induction reachFrom types reached pending with
  | case1 reached =>
    rcases member with already | ⟨impossible, -⟩
    · exact already
    · cases impossible
  | case2 reached first rest fresh ih =>
    apply ih
    rcases member with already | ⟨pending, declared⟩
    · exact .inl (List.mem_cons_of_mem _ already)
    · rcases List.mem_cons.mp pending with rfl | later
      · exact .inl List.mem_cons_self
      · exact .inr ⟨List.mem_append_right _ later, declared⟩
  | case3 reached first rest stale ih =>
    apply ih
    rcases member with already | ⟨pending, declared⟩
    · exact .inl already
    · rcases List.mem_cons.mp pending with rfl | later
      · exact .inl (Decidable.not_not.mp fun new => stale ⟨new, declared⟩)
      · exact .inr ⟨later, declared⟩

/-- The loop keeps what names already reached mention either reached or pending, so what it returns is
closed under mentions. -/
theorem reachFrom_closed {reached pending : List String}
    (open_ : ∀ name ∈ reached, ∀ next ∈ successors types name, next ∈ reached ∨ next ∈ pending)
    {name next : String} (member : name ∈ reachFrom types reached pending)
    (mentioned : next ∈ successors types name) : next ∈ reachFrom types reached pending := by
  fun_induction reachFrom types reached pending with
  | case1 reached =>
    rcases open_ name member next mentioned with already | impossible
    · exact already
    · cases impossible
  | case2 reached first rest fresh ih =>
    refine ih (fun older among later follows => ?_) member
    rcases List.mem_cons.mp among with rfl | before
    · exact .inr (List.mem_append_left _ follows)
    · rcases open_ older before later follows with already | waiting
      · exact .inl (List.mem_cons_of_mem _ already)
      · rcases List.mem_cons.mp waiting with rfl | further
        · exact .inl List.mem_cons_self
        · exact .inr (List.mem_append_right _ further)
  | case3 reached first rest stale ih =>
    refine ih (fun older among later follows => ?_) member
    rcases open_ older among later follows with already | waiting
    · exact .inl already
    · rcases List.mem_cons.mp waiting with rfl | further
      · have declared := declared_of_mem_successors follows
        exact .inl (Decidable.not_not.mp fun new => stale ⟨new, declared⟩)
      · exact .inr further

/-- The names collected are those that a path leads to. -/
theorem mem_reachFrom_iff {seeds : List String} {name : String} :
    name ∈ reachFrom types [] seeds ↔ ReachedFrom types seeds name := by
  constructor
  · refine reachFrom_induction (fun _ _ reached => reached.follow) ?_ (fun _ => .seed) name
    exact fun _ impossible => absurd impossible List.not_mem_nil
  · intro reached
    induction reached with
    | seed given declared => exact subset_reachFrom (.inr ⟨given, declared⟩)
    | follow _ mentioned ih =>
      exact reachFrom_closed (fun _ impossible => absurd impossible List.not_mem_nil) ih mentioned

/-- Every name is collected once. -/
theorem nodup_reachFrom {reached : List String} (distinct : reached.Nodup) (pending : List String) :
    (reachFrom types reached pending).Nodup := by
  fun_induction reachFrom types reached pending with
  | case1 reached => exact distinct
  | case2 reached first rest fresh ih => exact ih (List.nodup_cons.mpr ⟨fresh.1, distinct⟩)
  | case3 reached first rest _ ih => exact ih distinct

/-- A single mention of a type that mentions nothing is all that is reached. -/
theorem reachableNames_of_single {element : Element} {name : String}
    (mentions : element.mentions types = [name]) (declared : name ∈ Mapping.names types)
    (final : successors types name = []) : reachableNames types element = [name] := by
  rw [reachableNames, mentions, reachFrom_cons_fresh List.not_mem_nil declared, final,
    List.nil_append, reachFrom_nil]

theorem mem_reachableNames_iff {element : Element} {name : String} :
    name ∈ reachableNames types element ↔ ReachedFrom types (element.mentions types) name :=
  mem_reachFrom_iff

/-- A single mention leads to the type that is mentioned, and on to what that one reaches. -/
theorem mem_reachableNames_of_single_iff {element declaration : Element} {name other : String}
    (mentions : element.mentions types = [name])
    (declared : Mapping.get? types name = some declaration) :
    other ∈ reachableNames types element ↔
      other = name ∨ other ∈ reachableNames types declaration := by
  have follows := successors_of_get? declared
  rw [mem_reachableNames_iff, mem_reachableNames_iff, mentions, ← follows]
  have start : ReachedFrom types [name] name :=
    .seed (List.mem_singleton_self name) (Mapping.mem_names_of_get? declared)
  constructor
  · intro reached
    induction reached with
    | seed given _ => exact .inl (List.mem_singleton.mp given)
    | follow _ mentioned ih =>
      rcases ih with rfl | further
      · exact .inr (.seed mentioned (declared_of_mem_successors mentioned))
      · exact .inr (further.follow mentioned)
  · rintro (rfl | further)
    · exact start
    · exact start.trans further

theorem nodup_reachableNames (element : Element) : (reachableNames types element).Nodup :=
  nodup_reachFrom List.nodup_nil _

theorem mem_reachableNames_of_mentions {element : Element} {name : String}
    (mentioned : name ∈ element.mentions types) : name ∈ reachableNames types element :=
  mem_reachableNames_iff.mpr (.seed mentioned (element.declared_of_mem_mentions name mentioned))

theorem mem_reachableNames_follow {element : Element} {name next : String}
    (reached : name ∈ reachableNames types element) (mentioned : next ∈ successors types name) :
    next ∈ reachableNames types element :=
  mem_reachableNames_iff.mpr ((mem_reachableNames_iff.mp reached).follow mentioned)

/-! ## Cycles -/

theorem mem_cyclicNames_iff {name : String} :
    name ∈ cyclicNames types ↔
      ∃ element, (name, element) ∈ types ∧ name ∈ reachableNames types element := by
  unfold cyclicNames
  rw [List.mem_map]
  constructor
  · rintro ⟨⟨_, element⟩, found, rfl⟩
    rw [List.mem_filter, List.contains_iff_mem] at found
    exact ⟨element, found⟩
  · rintro ⟨element, found⟩
    exact ⟨(name, element), List.mem_filter.mpr ⟨found.1, List.contains_iff_mem.mpr found.2⟩, rfl⟩

theorem nodup_cyclicNames (distinct : Mapping.NamesDistinct types) : (cyclicNames types).Nodup :=
  distinct.sublist (List.filter_sublist.map Prod.fst)

/-- A name to which a path leads back is cyclic. -/
theorem mem_cyclicNames_of_path {name : String}
    (back : ReachedFrom types (successors types name) name) : name ∈ cyclicNames types := by
  obtain ⟨element, found⟩ := Mapping.exists_get?_iff.mpr back.declared
  rw [mem_cyclicNames_iff]
  refine ⟨element, Mapping.mem_of_get? found, ?_⟩
  rw [mem_reachableNames_iff, ← successors_of_get? found]
  exact back

/-! ## Names in order -/

theorem mem_sortNames {names : List String} {name : String} : name ∈ sortNames names ↔ name ∈ names :=
  (List.mergeSort_perm ..).mem_iff

theorem isEmpty_sortNames (names : List String) : (sortNames names).isEmpty = names.isEmpty := by
  rw [Bool.eq_iff_iff, List.isEmpty_iff, List.isEmpty_iff, List.eq_nil_iff_forall_not_mem,
    List.eq_nil_iff_forall_not_mem]
  exact forall_congr' fun _ => not_congr mem_sortNames

theorem pairwise_sortNames (names : List String) : (sortNames names).Pairwise (· ≤ ·) := by
  have sorted := @List.pairwise_mergeSort String (fun a b => decide (a ≤ b))
    (fun a b c => by simpa using fun first second => String.le_trans first second)
    (fun a b => by simpa using String.le_total a b) names
  exact sorted.imp fun le => of_decide_eq_true le

/-- The order of names does not depend on the order in which they are given. -/
theorem sortNames_eq_of_mem_iff {first second : List String} (distinct : first.Nodup)
    (distinctToo : second.Nodup) (same : ∀ name, name ∈ first ↔ name ∈ second) :
    sortNames first = sortNames second := by
  have permuted : first.Perm second := (List.perm_ext_iff_of_nodup distinct distinctToo).mpr same
  have sorted : (sortNames first).Perm (sortNames second) :=
    (List.mergeSort_perm ..).trans (permuted.trans (List.mergeSort_perm ..).symm)
  exact sorted.eq_of_pairwise (fun _ _ _ _ => String.le_antisymm) (pairwise_sortNames first)
    (pairwise_sortNames second)

/-! ## Acyclic names -/

/-- The declared names that a path leads to from a name. -/
def reachedCount (types : SymbolTable) (name : String) : Nat :=
  ((Mapping.names types).filter
    fun other => (reachFrom types [] (successors types name)).contains other).length

/-- A mentioned name that does not lead back reaches fewer names: it does not reach itself. -/
theorem reachedCount_lt {name next : String} (mentioned : next ∈ successors types name)
    (acyclic : next ∉ cyclicNames types) : reachedCount types next < reachedCount types name := by
  have onward : ∀ other, ReachedFrom types (successors types next) other →
      ReachedFrom types (successors types name) other := fun other reached =>
    (ReachedFrom.seed mentioned (declared_of_mem_successors mentioned)).trans reached
  have fewer : (Mapping.names types).filter
        (fun other => (reachFrom types [] (successors types next)).contains other) =
      ((Mapping.names types).filter
        fun other => (reachFrom types [] (successors types name)).contains other).filter
          fun other => (reachFrom types [] (successors types next)).contains other := by
    rw [List.filter_filter]
    apply List.filter_congr
    intro other _
    by_cases reached : other ∈ reachFrom types [] (successors types next)
    · have also := mem_reachFrom_iff.mpr (onward other (mem_reachFrom_iff.mp reached))
      simp [reached, also]
    · simp [reached]
  unfold reachedCount
  rw [fewer]
  apply List.length_filter_lt_length_iff_exists.mpr
  refine ⟨next, ?_, ?_⟩
  · rw [List.mem_filter, List.contains_iff_mem, mem_reachFrom_iff]
    exact ⟨declared_of_mem_successors mentioned, .seed mentioned (declared_of_mem_successors mentioned)⟩
  · rw [List.contains_iff_mem, mem_reachFrom_iff]
    exact fun back => acyclic (mem_cyclicNames_of_path back)

/-- Where no cyclic type is reachable, following mentions comes to an end. -/
theorem acc_mentioned_of_acyclic {element : Element}
    (acyclic : ∀ name ∈ reachableNames types element, name ∉ cyclicNames types) {name : String}
    (reached : name ∈ reachableNames types element) :
    Acc (fun next previous => next ∈ successors types previous) name := by
  induction count : reachedCount types name using Nat.strongRecOn generalizing name with
  | ind bound ih =>
    refine Acc.intro name fun next mentioned => ?_
    have further := mem_reachableNames_follow reached mentioned
    exact ih _ (count ▸ reachedCount_lt mentioned (acyclic next further)) further rfl

end Mson
