import Mathlib.Data.List.Forall2

/-!
# Computations that may fail

How a computation in `Except` that was put together from steps comes to its result. The other modules
take such computations apart with these laws.
-/
namespace Mson

variable {ε α β γ : Type}

theorem bind_eq_ok_iff {step : Except ε α} {next : α → Except ε β} {result : β} :
    (step >>= next) = .ok result ↔ ∃ value, step = .ok value ∧ next value = .ok result := by
  cases step <;> simp [bind, Except.bind]

theorem map_eq_ok_iff {step : Except ε α} {f : α → β} {result : β} :
    (do return f (← step)) = .ok result ↔ ∃ value, step = .ok value ∧ f value = result := by
  rw [bind_eq_ok_iff]
  simp [pure, Except.pure]

theorem mapError_eq_ok_iff {step : Except ε α} {f : ε → γ} {result : α} :
    step.mapError f = .ok result ↔ step = .ok result := by
  cases step with
  | error fault =>
    constructor
    · intro impossible
      cases impossible
    · intro impossible
      cases impossible
  | ok value =>
    constructor
    · rintro ⟨⟩
      rfl
    · rintro ⟨⟩
      rfl

theorem exists_bind_eq_ok_iff {step : Except ε α} {next : α → Except ε β} :
    (∃ result, (step >>= next) = .ok result) ↔
      ∃ value, step = .ok value ∧ ∃ result, next value = .ok result := by
  simp only [bind_eq_ok_iff]
  exact ⟨fun ⟨result, value, first, second⟩ => ⟨value, first, result, second⟩,
    fun ⟨value, first, result, second⟩ => ⟨result, value, first, second⟩⟩

/-- What follows a choice follows both of its branches. -/
theorem bind_ite (condition : Prop) [Decidable condition] (yes no : Except ε α)
    (next : α → Except ε β) :
    ((if condition then yes else no) >>= next) =
      if condition then yes >>= next else no >>= next := by
  split <;> rfl

theorem foldlM_nil_eq_ok_iff {f : β → α → Except ε β} {start result : β} :
    [].foldlM f start = .ok result ↔ start = result := by
  simp [pure, Except.pure]

theorem foldlM_cons_eq_ok_iff {f : β → α → Except ε β} {start result : β} {item : α}
    {items : List α} :
    (item :: items).foldlM f start = .ok result ↔
      ∃ next, f start item = .ok next ∧ items.foldlM f next = .ok result := by
  rw [List.foldlM_cons, bind_eq_ok_iff]

theorem mapM_nil_eq_ok_iff {f : α → Except ε β} {results : List β} :
    [].mapM f = .ok results ↔ results = [] := by
  simp [pure, Except.pure, eq_comm]

theorem mapM_cons_eq_ok_iff {f : α → Except ε β} {item : α} {items : List α} {results : List β} :
    (item :: items).mapM f = .ok results ↔
      ∃ first rest, f item = .ok first ∧ items.mapM f = .ok rest ∧ results = first :: rest := by
  rw [List.mapM_cons, bind_eq_ok_iff]
  simp only [bind_eq_ok_iff, pure, Except.pure, Except.ok.injEq]
  constructor
  · rintro ⟨first, success, rest, others, same⟩
    exact ⟨first, rest, success, others, same.symm⟩
  · rintro ⟨first, rest, success, others, same⟩
    exact ⟨first, success, rest, others, same.symm⟩

theorem mapM_append_eq_ok_iff {f : α → Except ε β} {first second : List α} {results : List β} :
    (first ++ second).mapM f = .ok results ↔
      ∃ earlier later, first.mapM f = .ok earlier ∧ second.mapM f = .ok later ∧
        results = earlier ++ later := by
  rw [List.mapM_append, bind_eq_ok_iff]
  simp only [bind_eq_ok_iff, pure, Except.pure, Except.ok.injEq]
  constructor
  · rintro ⟨earlier, success, later, others, same⟩
    exact ⟨earlier, later, success, others, same.symm⟩
  · rintro ⟨earlier, later, success, others, same⟩
    exact ⟨earlier, success, later, others, same.symm⟩

/-- A traversal succeeds exactly if the results are those of the items, one by one. -/
theorem mapM_eq_ok_iff_forall₂ {f : α → Except ε β} {items : List α} {results : List β} :
    items.mapM f = .ok results ↔
      List.Forall₂ (fun item result => f item = .ok result) items results := by
  induction items generalizing results with
  | nil => rw [mapM_nil_eq_ok_iff, List.forall₂_nil_left_iff]
  | cons item rest ih =>
    rw [mapM_cons_eq_ok_iff, List.forall₂_cons_left_iff]
    constructor
    · rintro ⟨first, others, here, later, rfl⟩
      exact ⟨first, others, here, ih.mp later, rfl⟩
    · rintro ⟨first, others, here, later, rfl⟩
      exact ⟨first, others, here, ih.mpr later, rfl⟩

/-- A fold whose steps each add what the item alone gives adds what all items give. -/
theorem foldlM_eq_of_mapM {f : β → α → Except ε β} {g : α → Except ε γ} {add : β → γ → β}
    (each : ∀ before item, f before item = g item >>= fun added => .ok (add before added))
    (items : List α) (start : β) :
    items.foldlM f start = items.mapM g >>= fun all => .ok (all.foldl add start) := by
  induction items generalizing start with
  | nil => rfl
  | cons item rest ih =>
    rw [List.foldlM_cons, List.mapM_cons, each]
    cases first : g item with
    | error fault => rfl
    | ok added =>
      show rest.foldlM f (add start added) = _
      rw [ih]
      cases others : rest.mapM g <;> rfl

/-- What relates the starts of two folds over one list and is kept by each pair of steps relates their
results. -/
theorem foldlM_relation {δ : Type} {f : β → α → Except ε β} {g : γ → α → Except δ γ}
    (relation : β → γ → Prop) {items : List α} {start result : β} {otherStart otherResult : γ}
    (success : items.foldlM f start = .ok result)
    (otherSuccess : items.foldlM g otherStart = .ok otherResult)
    (begins : relation start otherStart)
    (keeps : ∀ item ∈ items, ∀ before after other otherAfter, relation before other →
      f before item = .ok after → g other item = .ok otherAfter → relation after otherAfter) :
    relation result otherResult := by
  induction items generalizing start otherStart with
  | nil =>
    rw [← foldlM_nil_eq_ok_iff.mp success, ← foldlM_nil_eq_ok_iff.mp otherSuccess]
    exact begins
  | cons item rest ih =>
    obtain ⟨next, first, others⟩ := foldlM_cons_eq_ok_iff.mp success
    obtain ⟨otherNext, otherFirst, otherRest⟩ := foldlM_cons_eq_ok_iff.mp otherSuccess
    refine ih others otherRest ?_ fun later member => keeps later (List.mem_cons_of_mem _ member)
    exact keeps item List.mem_cons_self _ _ _ _ begins first otherFirst

theorem exists_of_mapM_eq_ok {f : α → Except ε β} {items : List α} {results : List β}
    (success : items.mapM f = .ok results) :
    (∀ item ∈ items, ∃ result ∈ results, f item = .ok result) ∧
      ∀ result ∈ results, ∃ item ∈ items, f item = .ok result := by
  induction items generalizing results with
  | nil =>
    rw [mapM_nil_eq_ok_iff.mp success]
    simp
  | cons item rest ih =>
    obtain ⟨first, others, here, later, rfl⟩ := mapM_cons_eq_ok_iff.mp success
    obtain ⟨forth, back⟩ := ih later
    refine ⟨List.forall_mem_cons.mpr ⟨⟨first, List.mem_cons_self, here⟩, fun other member => ?_⟩,
      List.forall_mem_cons.mpr ⟨⟨item, List.mem_cons_self, here⟩, fun other member => ?_⟩⟩
    · obtain ⟨result, found, success⟩ := forth other member
      exact ⟨result, List.mem_cons_of_mem _ found, success⟩
    · obtain ⟨source, found, success⟩ := back other member
      exact ⟨source, List.mem_cons_of_mem _ found, success⟩

theorem exists_mapM_eq_ok {f : α → Except ε β} {items : List α}
    (each : ∀ item ∈ items, ∃ result, f item = .ok result) : ∃ results, items.mapM f = .ok results := by
  induction items with
  | nil => exact ⟨[], rfl⟩
  | cons item rest ih =>
    obtain ⟨first, here⟩ := each item List.mem_cons_self
    obtain ⟨others, later⟩ := ih fun other member => each other (List.mem_cons_of_mem _ member)
    exact ⟨first :: others, mapM_cons_eq_ok_iff.mpr ⟨first, others, here, later, rfl⟩⟩

/-- A property of computations that holds of whatever is put together from computations that have
it. -/
structure Composes {ε : Type} (property : {α : Type} → Except ε α → Prop) : Prop where
  ok {α : Type} (value : α) : property (.ok value : Except ε α)
  bind {α β : Type} {step : Except ε α} {next : α → Except ε β} (first : property step)
    (then_ : ∀ value, step = .ok value → property (next value)) : property (step >>= next)

namespace Composes

variable {ε α β : Type} {property : {α : Type} → Except ε α → Prop}

theorem mapM (composes : Composes @property) {f : α → Except ε β} {items : List α}
    (each : ∀ item ∈ items, property (f item)) : property (items.mapM f) := by
  induction items with
  | nil => exact composes.ok []
  | cons item rest ih =>
    rw [List.mapM_cons]
    refine composes.bind (each item List.mem_cons_self) fun first _ => ?_
    exact composes.bind (ih fun later member => each later (List.mem_cons_of_mem _ member))
      fun others _ => composes.ok _

theorem foldlM (composes : Composes @property) {f : β → α → Except ε β} {items : List α} {start : β}
    (each : ∀ item ∈ items, ∀ before, property (f before item)) :
    property (items.foldlM f start) := by
  induction items generalizing start with
  | nil => exact composes.ok start
  | cons item rest ih =>
    rw [List.foldlM_cons]
    exact composes.bind (each item List.mem_cons_self start)
      fun next _ => ih fun later member => each later (List.mem_cons_of_mem _ member)

end Composes

end Mson
