import Mathlib.Data.List.Chain
import Mson.Proofs.ReferenceCycle

/-!
# Reachable types in any order

`reachableNames` follows up the pending names in an order of its own. Here the order is left open: a
step takes any pending name, and puts what its declaration mentions back in any order. Every run of
such steps comes to an end, a run that has not ended can go on, and however it ends it has reached
the same names: those that a walk leads to, which starts at a mention of the element and goes from
each name to one that its declaration mentions (`worklist_closes`).
-/
namespace Mson

variable {types : SymbolTable} {element : Element}

/-! ## Walks -/

/-- A walk to a name: it starts at a mention of the element, and each further name is mentioned by the
declaration of the one before. -/
structure Element.Walk (types : SymbolTable) (element : Element) (walk : List String)
    (name : String) : Prop where
  first : ∀ start ∈ walk.head?, start ∈ element.mentions types
  steps : walk.IsChain fun here next => MentionedBy types next here
  last : walk.getLast? = some name

theorem Element.Walk.single {name : String} (mentioned : name ∈ element.mentions types) :
    element.Walk types [name] name where
  first start isHead := by
    cases isHead
    exact mentioned
  steps := .singleton name
  last := rfl

theorem Element.Walk.follow {walk : List String} {name next : String}
    (leads : element.Walk types walk name) (mentioned : next ∈ successors types name) :
    element.Walk types (walk ++ [next]) next where
  first start isHead := by
    refine leads.first start ?_
    cases walk with
    | nil => cases leads.last
    | cons _ _ => exact isHead
  steps := by
    refine List.isChain_append.mpr ⟨leads.steps, .singleton next, fun before isLast after isHead => ?_⟩
    rw [leads.last] at isLast
    cases isLast
    cases isHead
    exact mentioned
  last := List.getLast?_concat

/-- A walk leads to exactly the names that are reached. -/
theorem reachedFrom_iff_walk {name : String} :
    ReachedFrom types (element.mentions types) name ↔ ∃ walk, element.Walk types walk name := by
  constructor
  · intro reached
    induction reached with
    | seed mentioned _ => exact ⟨_, .single mentioned⟩
    | follow _ mentioned ih =>
      obtain ⟨walk, leads⟩ := ih
      exact ⟨_, leads.follow mentioned⟩
  · rintro ⟨walk, leads⟩
    -- a walk is taken apart at its end, as paths are built
    induction walk using List.reverseRecOn generalizing name with
    | nil => cases leads.last
    | append_singleton walk last ih =>
      obtain rfl : last = name := Option.some.inj (List.getLast?_concat.symm.trans leads.last)
      obtain ⟨steps, -, across⟩ := List.isChain_append.mp leads.steps
      cases before : walk.getLast? with
      | none =>
        obtain rfl := List.getLast?_eq_none_iff.mp before
        have mentioned := leads.first last rfl
        exact .seed mentioned (element.declared_of_mem_mentions last mentioned)
      | some previous =>
        have isWalk : element.Walk types walk previous := by
          refine ⟨fun start isHead => leads.first start ?_, steps, before⟩
          rw [List.head?_append, Option.mem_def.mp isHead]
          rfl
        exact (ih isWalk).follow (across previous before last rfl)

/-! ## Steps -/

/-- The names reached so far and the names to be followed up. -/
structure Worklist where
  reached : List String
  pending : List String

namespace Worklist

/-- The state in which nothing is reached and every mention of the element is pending. -/
def Starts (types : SymbolTable) (element : Element) (start : Worklist) : Prop :=
  start.reached = [] ∧ ∀ name, name ∈ start.pending ↔ name ∈ element.mentions types

/-- Any pending name is taken. One that is reached already is dropped; a new one is reached, and all
that its declaration mentions becomes pending. -/
inductive Step (types : SymbolTable) : Worklist → Worklist → Prop
  | drop {reached pending rest : List String} {name : String}
      (taken : pending.Perm (name :: rest)) (old : name ∈ reached) :
      Step types ⟨reached, pending⟩ ⟨reached, rest⟩
  | visit {reached pending rest added : List String} {name : String} {declaration : Element}
      (taken : pending.Perm (name :: rest)) (new : name ∉ reached)
      (declared : Mapping.get? types name = some declaration)
      (follows : ∀ next, next ∈ added ↔ next ∈ declaration.mentions types) :
      Step types ⟨reached, pending⟩ ⟨name :: reached, added ++ rest⟩

/-- States in a run from one to the other. -/
abbrev Runs (types : SymbolTable) : Worklist → Worklist → Prop :=
  Relation.ReflTransGen (Step types)

/-! ## Termination -/

/-- What gets less with every step: the names not yet reached, and while these stay the same the
pending ones. -/
def remaining (types : SymbolTable) (state : Worklist) : Nat × Nat :=
  ((unreached types state.reached).length, state.pending.length)

theorem Step.remaining_lt {before after : Worklist} (step : Step types before after) :
    Prod.Lex (· < ·) (· < ·) (after.remaining types) (before.remaining types) := by
  cases step with
  | drop taken _ => exact .right _ (by simp [taken.length_eq])
  | visit _ new declared _ =>
    exact .left _ _ (unreached_length_lt (Mapping.mem_names_of_get? declared) new)

/-- There is no run without end. -/
theorem wellFounded_step : WellFounded fun after before => Step types before after :=
  Subrelation.wf Step.remaining_lt
    (InvImage.wf (remaining types) (WellFounded.prod_lex Nat.lt_wfRel.wf Nat.lt_wfRel.wf))

/-! ## Invariant -/

/-- What holds after every step: whatever is pending is declared, only names that a path leads to
are reached or pending, and what the element or a reached name mentions is reached or pending. -/
structure Invariant (types : SymbolTable) (element : Element) (state : Worklist) : Prop where
  distinct : state.reached.Nodup
  declared : ∀ name ∈ state.pending, name ∈ Mapping.names types
  sound : ∀ name, name ∈ state.reached ∨ name ∈ state.pending →
    ReachedFrom types (element.mentions types) name
  starts : ∀ name ∈ element.mentions types, name ∈ state.reached ∨ name ∈ state.pending
  closed : ∀ name ∈ state.reached, ∀ next ∈ successors types name,
    next ∈ state.reached ∨ next ∈ state.pending

theorem Starts.invariant {start : Worklist} (starts : Starts types element start) :
    Invariant types element start := by
  obtain ⟨reached, pending⟩ := start
  obtain ⟨rfl, same⟩ := starts
  have declared : ∀ name ∈ pending, name ∈ Mapping.names types := fun name waiting =>
    element.declared_of_mem_mentions name ((same name).mp waiting)
  refine ⟨List.nodup_nil, declared, ?_, fun name mentioned => .inr ((same name).mpr mentioned), ?_⟩
  · rintro name (none | waiting)
    · cases none
    · exact .seed ((same name).mp waiting) (declared name waiting)
  · intro name none
    cases none

theorem Invariant.step {before after : Worklist} (holds : Invariant types element before)
    (step : Step types before after) : Invariant types element after := by
  cases step with
  | @drop reached pending rest name taken old =>
    -- what was pending before is pending still, or it is the name that was reached already
    have still : ∀ other, other ∈ reached ∨ other ∈ pending → other ∈ reached ∨ other ∈ rest := by
      rintro other (there | waiting)
      · exact .inl there
      · rcases List.mem_cons.mp (taken.mem_iff.mp waiting) with rfl | later
        · exact .inl old
        · exact .inr later
    have waits : ∀ other ∈ rest, other ∈ pending := fun other later =>
      taken.mem_iff.mpr (List.mem_cons_of_mem _ later)
    exact {
      distinct := holds.distinct
      declared := fun other later => holds.declared other (waits other later)
      sound := fun other known => holds.sound other (known.imp_right (waits other))
      starts := fun other mentioned => still other (holds.starts other mentioned)
      closed := fun other there next mentioned => still next (holds.closed other there next mentioned) }
  | @visit reached pending rest added name declaration taken new declared follows =>
    have waits : ∀ other ∈ name :: rest, other ∈ pending := fun other => taken.mem_iff.mpr
    have reachedNow : ReachedFrom types (element.mentions types) name :=
      holds.sound name (.inr (waits name List.mem_cons_self))
    have mentions : ∀ next, next ∈ added ↔ next ∈ successors types name := fun next => by
      rw [follows, successors_of_get? declared]
    have still : ∀ other, other ∈ reached ∨ other ∈ pending →
        other ∈ name :: reached ∨ other ∈ added ++ rest := by
      rintro other (there | waiting)
      · exact .inl (List.mem_cons_of_mem _ there)
      · rcases List.mem_cons.mp (taken.mem_iff.mp waiting) with rfl | later
        · exact .inl List.mem_cons_self
        · exact .inr (List.mem_append_right _ later)
    refine ⟨List.nodup_cons.mpr ⟨new, holds.distinct⟩, ?_, ?_,
      fun other mentioned => still other (holds.starts other mentioned), ?_⟩
    · intro other waiting
      rcases List.mem_append.mp waiting with mentioned | later
      · exact declared_of_mem_successors ((mentions other).mp mentioned)
      · exact holds.declared other (waits other (List.mem_cons_of_mem _ later))
    · rintro other (there | waiting)
      · rcases List.mem_cons.mp there with rfl | earlier
        · exact reachedNow
        · exact holds.sound other (.inl earlier)
      · rcases List.mem_append.mp waiting with mentioned | later
        · exact reachedNow.follow ((mentions other).mp mentioned)
        · exact holds.sound other (.inr (waits other (List.mem_cons_of_mem _ later)))
    · intro other there next mentioned
      rcases List.mem_cons.mp there with rfl | earlier
      · exact .inr (List.mem_append_left _ ((mentions next).mpr mentioned))
      · exact still next (holds.closed other earlier next mentioned)

theorem Invariant.runs {start now : Worklist} (holds : Invariant types element start)
    (runs : Runs types start now) : Invariant types element now := by
  induction runs with
  | refl => exact holds
  | tail _ step ih => exact ih.step step

/-- Taking a pending name never fails: it is reached already, or it has a declaration. -/
theorem Invariant.exists_step {state : Worklist} (holds : Invariant types element state)
    (waiting : state.pending ≠ []) : ∃ next, Step types state next := by
  obtain ⟨reached, pending⟩ := state
  obtain ⟨name, rest, rfl⟩ := List.exists_cons_of_ne_nil waiting
  by_cases old : name ∈ reached
  · exact ⟨_, .drop (List.Perm.refl _) old⟩
  · obtain ⟨declaration, declared⟩ :=
      Mapping.exists_get?_iff.mpr (holds.declared name List.mem_cons_self)
    exact ⟨_, .visit (List.Perm.refl _) old declared fun _ => Iff.rfl⟩

/-- Where nothing is pending, what is reached is closed under mentions. -/
theorem Invariant.mem_reached_iff {state : Worklist} (holds : Invariant types element state)
    (done : state.pending = []) {name : String} :
    name ∈ state.reached ↔ ReachedFrom types (element.mentions types) name := by
  have reached : ∀ other, other ∈ state.reached ∨ other ∈ state.pending → other ∈ state.reached := by
    rintro other (there | waiting)
    · exact there
    · rw [done] at waiting
      cases waiting
  constructor
  · exact fun there => holds.sound name (.inl there)
  · intro path
    induction path with
    | seed mentioned _ => exact reached _ (holds.starts _ mentioned)
    | follow _ mentioned ih => exact reached _ (holds.closed _ ih _ mentioned)

/-- The order in which `reachFrom` takes the pending names is one of those that are allowed. -/
theorem runs_reachFrom (reached pending : List String)
    (declared : ∀ name ∈ pending, name ∈ Mapping.names types) :
    Runs types ⟨reached, pending⟩ ⟨reachFrom types reached pending, []⟩ := by
  fun_induction reachFrom types reached pending with
  | case1 reached => exact .refl
  | case2 reached name rest fresh ih =>
    obtain ⟨declaration, found⟩ := Mapping.exists_get?_iff.mpr fresh.2
    have visit : Step types ⟨reached, name :: rest⟩ ⟨name :: reached, successors types name ++ rest⟩ :=
      .visit (List.Perm.refl _) fresh.1 found fun next => by rw [successors_of_get? found]
    refine .head visit (ih fun other waiting => ?_)
    rcases List.mem_append.mp waiting with mentioned | later
    · exact declared_of_mem_successors mentioned
    · exact declared other (List.mem_cons_of_mem _ later)
  | case3 reached name rest stale ih =>
    have old : name ∈ reached :=
      Decidable.not_not.mp fun new => stale ⟨new, declared name List.mem_cons_self⟩
    refine .head (.drop (List.Perm.refl _) old) (ih fun other later => ?_)
    exact declared other (List.mem_cons_of_mem _ later)

end Worklist

/-- Following up pending names in any order comes to an end. It ends with each name once to which a
walk leads, and `reachableNames` is the end of one such run. -/
theorem worklist_closes (types : SymbolTable) (element : Element) :
    (WellFounded fun after before => Worklist.Step types before after) ∧
    (∀ start now, Worklist.Starts types element start → Worklist.Runs types start now →
      (now.pending ≠ [] → ∃ next, Worklist.Step types now next) ∧
      (now.pending = [] → now.reached.Nodup ∧
        ∀ name, name ∈ now.reached ↔ ∃ walk, element.Walk types walk name)) ∧
    Worklist.Runs types ⟨[], element.mentions types⟩ ⟨reachableNames types element, []⟩ ∧
    ∀ name, name ∈ reachableNames types element ↔ ∃ walk, element.Walk types walk name := by
  refine ⟨Worklist.wellFounded_step, fun start now starts runs => ?_, ?_, fun name => ?_⟩
  · have holds : Worklist.Invariant types element now := starts.invariant.runs runs
    refine ⟨holds.exists_step, fun done => ⟨holds.distinct, fun name => ?_⟩⟩
    rw [holds.mem_reached_iff done, reachedFrom_iff_walk]
  · exact Worklist.runs_reachFrom [] _ element.declared_of_mem_mentions
  · rw [mem_reachableNames_iff, reachedFrom_iff_walk]

namespace LinkedList

/-- The list is followed up, then its node, which mentions itself once more. -/
theorem worklist_closes_list :
    Worklist.Starts table ⟨"List", .absent, [], []⟩ ⟨[], ["List"]⟩ ∧
      Worklist.Runs table ⟨[], ["List"]⟩ ⟨["Node", "List"], []⟩ ∧
      ["Node", "List"].Nodup ∧
      ∀ name, name ∈ ["Node", "List"] ↔
        ∃ walk, Element.Walk table ⟨"List", .absent, [], []⟩ walk name := by
  have mentioned : Element.mentions table ⟨"List", .absent, [], []⟩ = ["List"] := by decide
  have starts : Worklist.Starts table ⟨"List", .absent, [], []⟩ ⟨[], ["List"]⟩ :=
    ⟨rfl, fun name => by rw [mentioned]⟩
  have follows : ∀ key, Element.mentions table ⟨"object", .children [member key "Node"], [], []⟩ =
      ["Node"] := fun _ => rfl
  have visitList : Worklist.Step table ⟨[], ["List"]⟩ ⟨["List"], ["Node"] ++ []⟩ :=
    .visit (List.Perm.refl _) List.not_mem_nil rfl fun next => by rw [follows]
  have visitNode : Worklist.Step table ⟨["List"], ["Node"]⟩ ⟨["Node", "List"], ["Node"] ++ []⟩ :=
    .visit (List.Perm.refl _) (by decide) rfl fun next => by rfl
  have dropNode : Worklist.Step table ⟨["Node", "List"], ["Node"]⟩ ⟨["Node", "List"], []⟩ :=
    .drop (List.Perm.refl _) List.mem_cons_self
  have runs : Worklist.Runs table ⟨[], ["List"]⟩ ⟨["Node", "List"], []⟩ :=
    .head visitList (.head visitNode (.single dropNode))
  have closes := (worklist_closes table ⟨"List", .absent, [], []⟩).2.1 _ _ starts runs
  exact ⟨starts, runs, closes.2 rfl⟩

end LinkedList

end Mson
