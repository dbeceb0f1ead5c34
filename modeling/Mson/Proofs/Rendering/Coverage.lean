import Mson.Proofs.Reachability
import Mson.Proofs.Rendering.Limit

/-!
# The names that rendering looks up

`reachableNames` walks the declarations as they are written, while rendering looks names up in
elements that inheritance puts together. The two go apart at one place: where a named type is
declared as a reference, an element laid over it may bring a target of its own, and the walk does not
take that content for a target. If such targets are reachable otherwise (`RedirectsWithin`), and only
then, every declared name that is looked up is reachable, and the other declarations play no part in
rendering.
-/
namespace Mson

/-- Whether a name is looked up among the declarations at a visit. -/
inductive Visit.LooksUp : Visit → String → Prop
  | base {element : Element} (kind : element.kind = none) :
      Visit.LooksUp (.rendered element) element.name
  | target {element : Element} {name : String} (kind : element.kind = some .reference)
      (target : element.target? = some name) : Visit.LooksUp (.rendered element) name
  | included {element : Element} {name : String} (isReference : element.isReference = true)
      (target : element.target? = some name) : Visit.LooksUp (.listed element) name

/-- Whether the given names cover the declared ones that an element looks up itself and those that
its parts mention. -/
structure Element.Within (types : SymbolTable) (names : List String) (element : Element) :
    Prop where
  parts : element.PartsWellShaped
  children : ∀ child ∈ element.children, ∀ name ∈ child.mentions types, name ∈ names
  value : ∀ value, element.memberValue? = some value → ∀ name ∈ value.mentions types, name ∈ names
  base : element.kind = none → element.name ∈ Mapping.names types → element.name ∈ names
  target : element.kind = some .reference → ∀ name, element.target? = some name →
    name ∈ Mapping.names types → name ∈ names

/-- Whether an element gives the declared reference that it is laid over a target of its own. -/
structure Element.Redirects (types : SymbolTable) (derived : Element) (name : String) : Prop where
  unknown : derived.kind = none
  reference : ∃ base, Mapping.get? types derived.name = some base ∧ base.kind = some .reference
  target : derived.target? = some name

/-- Whether declared references are redirected to the given names only, wherever a visit leads. -/
def RedirectsWithin (types : SymbolTable) (names : List String) (start : Visit) : Prop :=
  ∀ derived name, Visits types start (.rendered derived) → derived.Redirects types name →
    name ∈ Mapping.names types → name ∈ names

section Within

variable {types : SymbolTable} {names : List String}

/-- An element as it is parsed mentions all that is looked up. -/
theorem Element.WellShaped.within {element : Element} (shaped : element.WellShaped)
    (mentioned : ∀ name ∈ element.mentions types, name ∈ names) : element.Within types names := by
  have content := shaped.content
  refine ⟨shaped.parts, fun child member name below => ?_, fun value held name below => ?_,
    fun kind declared => ?_, fun kind name target declared => ?_⟩
  · have childless : ¬ (element.kind = some .member ∨ element.kind = some .reference) := by
      intro kind
      rw [shaped.childless kind] at member
      cases member
    rw [not_or] at childless
    exact mentioned name ((mem_mentions_iff childless.2 childless.1).mpr (.inr ⟨child, member, below⟩))
  · unfold memberValue? at held
    split at held
    · rename_i key found
      cases held
      rw [found] at content
      apply mentioned
      rw [mentions_of_member content.1, found]
      exact below
    · cases held
  · apply mentioned
    rw [mem_mentions_iff (by simp [kind]) (by simp [kind])]
    exact .inl ⟨kind, rfl, declared⟩
  · apply mentioned
    rw [mentions_of_reference kind, mem_targetMention]
    exact ⟨target?_eq_some_iff.mp target, declared⟩

theorem Element.Within.resolveInheritance {base derived : Element} (first : base.Within types names)
    (second : derived.Within types names)
    (redirected : base.kind = some .reference → ∀ name, derived.target? = some name →
      name ∈ Mapping.names types → name ∈ names) :
    (resolveInheritance base derived).Within types names where
  parts := first.parts.resolveInheritance second.parts
  children child member :=
    (mem_children_resolveInheritance member).elim (first.children child) (second.children child)
  value value held :=
    (memberValue?_resolveInheritance held).elim (first.value value) (second.value value)
  base := first.base
  target kind name target declared := by
    rcases target?_resolveInheritance target with own | ⟨-, inherited⟩
    · exact redirected kind name own declared
    · exact first.target kind name inherited declared

variable (parsed : types.Parsed)
  (closed : ∀ name ∈ names, ∀ next ∈ successors types name, next ∈ names)

include parsed closed

theorem within_of_get? {name : String} {declaration : Element}
    (found : Mapping.get? types name = some declaration) (among : name ∈ names) :
    declaration.Within types names := by
  refine (parsed.wellShaped found).within fun next mentioned => closed name among next ?_
  rw [successors_of_get? found]
  exact mentioned

/-- One step stays within names that are closed under mentions, unless it redirects a reference. -/
theorem Step.within {before after : Visit} (inside : before.element.Within types names)
    (redirected : ∀ derived name, before = .rendered derived → derived.Redirects types name →
      name ∈ Mapping.names types → name ∈ names)
    (next : Step types before after) : after.element.Within types names := by
  have ofChild : ∀ child ∈ before.element.children, child.Within types names := fun child member =>
    (inside.parts.children child member).within (inside.children child member)
  cases next with
  | item _ child => exact ofChild _ child
  | firstChoice _ first => exact ofChild _ (List.mem_of_mem_head? first)
  | objectMember _ child => exact ofChild _ child
  | optionSet _ => exact inside
  | target kind found =>
    obtain ⟨name, target, declared⟩ := Option.bind_eq_some_iff.mp found
    exact within_of_get? parsed closed declared
      (inside.target kind name target (Mapping.mem_names_of_get? declared))
  | inherit kind found =>
    have base := within_of_get? parsed closed found
      (inside.base kind (Mapping.mem_names_of_get? found))
    exact base.resolveInheritance inside fun isReference name target =>
      redirected _ name rfl ⟨kind, ⟨_, found, isReference⟩, target⟩
  | mixin isReference included =>
    obtain ⟨name, declaration, target, declared, child⟩ := mem_includedChildren included
    have whole := within_of_get? parsed closed declared
      (inside.target (of_decide_eq_true isReference) name target (Mapping.mem_names_of_get? declared))
    exact (whole.parts.children _ child).within (whole.children _ child)
  | value _ held => exact (inside.parts.value _ held).within (inside.value _ held)
  | option _ child => exact ofChild _ child
  | firstOption _ first child =>
    have option := ofChild _ (List.mem_of_mem_head? first)
    exact (option.parts.children _ child).within (option.children _ child)

theorem within_of_visits {start visit : Visit} (begins : start.element.Within types names)
    (redirects : RedirectsWithin types names start) (visits : Visits types start visit) :
    visit.element.Within types names := by
  induction visits with
  | refl => exact begins
  | @tail before after earlier next ih =>
    refine next.within parsed closed ih fun derived name same => ?_
    subst same
    exact redirects derived name earlier

/-- No target is redirected if none of the names is declared as a reference. -/
theorem redirectsWithin_of_noReferences {start : Visit}
    (begins : start.element.Within types names)
    (noReferences : ∀ name ∈ names, ∀ declaration,
      Mapping.get? types name = some declaration → declaration.kind ≠ some .reference) :
    RedirectsWithin types names start := by
  have noRedirect : ∀ (derived : Element) (name : String), derived.Within types names →
      ¬ derived.Redirects types name := by
    rintro derived name inside ⟨unknown, ⟨base, found, isReference⟩, -⟩
    have among := inside.base unknown (Mapping.mem_names_of_get? found)
    exact noReferences derived.name among base found isReference
  have inside : ∀ visit, Visits types start visit → visit.element.Within types names := by
    intro visit visits
    induction visits with
    | refl => exact begins
    | tail _ next ih =>
      refine next.within parsed closed ih fun derived name same redirects => ?_
      subst same
      exact absurd redirects (noRedirect derived name ih)
  intro derived name visits redirects
  exact absurd redirects (noRedirect derived name (inside _ visits))

end Within

theorem Element.Within.mem_of_looksUp {types : SymbolTable} {names : List String} {visit : Visit}
    {name : String} (inside : visit.element.Within types names) (looksUp : visit.LooksUp name)
    (declared : name ∈ Mapping.names types) : name ∈ names := by
  cases looksUp with
  | base kind => exact inside.base kind declared
  | target kind target => exact inside.target kind name target declared
  | included isReference target =>
    exact inside.target (of_decide_eq_true isReference) name target declared

/-! ## Rendering without the unreachable declarations -/

/-- The declarations of the given names. -/
def SymbolTable.restrict (types : SymbolTable) (names : List String) : SymbolTable :=
  types.filter fun entry => names.contains entry.1

/-- Whether the declared names that a visit looks up are among the given ones. -/
def Visit.LooksUpWithin (types : SymbolTable) (names : List String) (visit : Visit) : Prop :=
  ∀ name, visit.LooksUp name → name ∈ Mapping.names types → name ∈ names

theorem get?_restrict (types : SymbolTable) (names : List String) (name : String) :
    Mapping.get? (types.restrict names) name =
      if name ∈ names then Mapping.get? types name else none := by
  unfold SymbolTable.restrict
  rw [Mapping.get?_filter_name types fun other => names.contains other]
  simp only [List.contains_iff_mem]

theorem get?_restrict_of_kept {types : SymbolTable} {names : List String} {name : String}
    (kept : name ∈ Mapping.names types → name ∈ names) :
    Mapping.get? (types.restrict names) name = Mapping.get? types name := by
  rw [get?_restrict]
  split
  · rfl
  · rename_i dropped
    exact (Mapping.get?_eq_none_iff.mpr fun declared => dropped (kept declared)).symm

/-- The target of a declared reference is replaced by the content of the element laid over it. -/
theorem target?_redirected {base derived : Element} {name : String}
    (target : derived.target? = some name) :
    (resolveInheritance base derived).target? = some name := by
  rw [Element.target?_eq_some_iff] at target ⊢
  show combineContent base.content derived.content = _
  rw [target]
  cases base.content <;> rfl

/-- A redirected reference loses its target with the declaration of the target, and shows nothing. -/
theorem Element.Redirects.renderExampleWithin_restrict {types : SymbolTable} {names : List String}
    {derived : Element} {name : String} (redirects : derived.Redirects types name)
    (dropped : name ∉ names) (steps depth : Nat) :
    renderExampleWithin steps (types.restrict names) (depth + 2) derived = .ok .null := by
  obtain ⟨unknown, ⟨base, found, isReference⟩, target⟩ := redirects
  have kind : (resolveInheritance base derived).kind = some .reference := isReference
  have redirected : (resolveInheritance base derived).target? = some name :=
    target?_redirected target
  rw [renderExampleWithin]
  by_cases kept : derived.name ∈ names
  · simp only [unknown, get?_restrict, if_pos kept, found]
    rw [renderExampleWithin]
    simp only [kind, redirected, Option.bind_some, get?_restrict, if_neg dropped]
    rfl
  · simp only [unknown, get?_restrict, if_neg kept]
    rfl

theorem Visit.LooksUpWithin.agree {types : SymbolTable} {names : List String} {visit : Visit}
    (within : visit.LooksUpWithin types names) : Agree types (types.restrict names) visit := by
  cases visit with
  | rendered element =>
    refine ⟨fun kind => get?_restrict_of_kept (within element.name (.base kind)), fun kind => ?_⟩
    cases target : element.target? with
    | none => rfl
    | some name => exact get?_restrict_of_kept (within name (.target kind target))
  | listed element =>
    intro isReference
    unfold includedChildren
    cases target : element.target? with
    | none => rfl
    | some name => simp only [get?_restrict_of_kept (within name (.included isReference target))]

/-- All declared names that rendering looks up are reachable if and only if targets are redirected to
reachable names only, and then the other declarations can be taken away: the schema and the example
stay the same. Where a target is redirected elsewhere, nothing is left to show without them. -/
theorem reachableNames_suffice {types : SymbolTable} {element : Element}
    (parsedTypes : types.Parsed) (parsed : element.Parsed) :
    (Throughout types (Visit.LooksUpWithin types (reachableNames types element))
        (.rendered element) ↔
      RedirectsWithin types (reachableNames types element) (.rendered element)) ∧
    (RedirectsWithin types (reachableNames types element) (.rendered element) → ∀ steps depth,
      (Settled (renderSchemaWithin steps types depth element) →
        renderSchemaWithin steps (types.restrict (reachableNames types element)) depth element =
          renderSchemaWithin steps types depth element) ∧
      (Settled (renderExampleWithin steps types depth element) →
        renderExampleWithin steps (types.restrict (reachableNames types element)) depth element =
          renderExampleWithin steps types depth element)) ∧
    ∀ derived name, Visits types (.rendered element) (.rendered derived) →
      derived.Redirects types name → name ∉ reachableNames types element → ∀ steps depth,
        renderExampleWithin steps (types.restrict (reachableNames types element)) (depth + 2)
          derived = .ok .null := by
  have closed : ∀ name ∈ reachableNames types element, ∀ next ∈ successors types name,
      next ∈ reachableNames types element := fun _ reached _ => mem_reachableNames_follow reached
  have begins : (Visit.rendered element).element.Within types (reachableNames types element) :=
    parsed.wellShaped.within fun _ => mem_reachableNames_of_mentions
  have covered : RedirectsWithin types (reachableNames types element) (.rendered element) →
      Throughout types (Visit.LooksUpWithin types (reachableNames types element))
        (.rendered element) := fun redirects visit visits _ looksUp declared =>
    (within_of_visits parsedTypes closed begins redirects visits).mem_of_looksUp looksUp declared
  refine ⟨⟨fun within derived name visits redirects declared => ?_, covered⟩,
    fun redirects steps depth => ?_, fun _ _ _ => Element.Redirects.renderExampleWithin_restrict⟩
  · obtain ⟨unknown, ⟨base, found, isReference⟩, target⟩ := redirects
    have resolved : Visits types (.rendered element) (.rendered (resolveInheritance base derived)) :=
      visits.tail (.inherit unknown found)
    exact within _ resolved name (.target isReference (target?_redirected target)) declared
  · have agree : Throughout types (Agree types
        (types.restrict (reachableNames types element))) (.rendered element) :=
      (covered redirects).imp fun _ => Visit.LooksUpWithin.agree
    exact ⟨renderSchemaWithin_extends (Nat.le_refl _) (Nat.le_refl _) agree,
      (renderExampleWithin_extends (Nat.le_refl _) (Nat.le_refl _)).1 element agree⟩

namespace Redirection

/-- A reference without a target, and a string. -/
def table : SymbolTable := [("A", ⟨"ref", .absent, [], []⟩), ("B", ⟨"string", .absent, [], []⟩)]

/-- Gives the reference the target `B`. -/
def redirected : Element := ⟨"A", .literal (.string "B"), [], []⟩

def strings : Element := ⟨"array", .children [⟨"B", .absent, [], []⟩], [], []⟩

theorem table_parsed : table.Parsed := by
  rintro entry (_ | ⟨_, _ | ⟨_, ⟨⟩⟩⟩)
  · exact ⟨.object [("element", .string "ref")], by decide, rfl⟩
  · exact ⟨.object [("element", .string "string")], by decide, rfl⟩

theorem reachableNames_suffice_strings :
    renderSchema [("B", ⟨"string", .absent, [], []⟩)] strings = renderSchema table strings := by
  have parsed : strings.Parsed :=
    ⟨.object [("element", .string "array"), ("content", .array [.object [("element", .string "B")]])],
      by decide, rfl⟩
  have reachable : reachableNames table strings = ["B"] :=
    reachableNames_of_single (by decide) (by decide) (by decide)
  have redirects : RedirectsWithin table (reachableNames table strings) (.rendered strings) := by
    refine redirectsWithin_of_noReferences table_parsed
      (fun _ reached _ => mem_reachableNames_follow reached)
      (parsed.wellShaped.within fun _ => mem_reachableNames_of_mentions)
      fun name among _ found => ?_
    rw [reachable, List.mem_singleton] at among
    subst among
    cases found
    decide
  have same := ((reachableNames_suffice table_parsed parsed).2.1 redirects
    expansionSteps renderDepth).1 (settled_ok _)
  rw [reachable] at same
  exact same

/-- The target `B` is not reachable, and the schema and the example depend on it. -/
theorem reachableNames_miss_target :
    table.Parsed ∧ redirected.Parsed ∧ reachableNames table redirected = ["A"] ∧
      renderSchema table redirected = .ok [("type", .string "string")] ∧
      renderSchema (table.restrict (reachableNames table redirected)) redirected = .ok [] ∧
      renderExample table redirected = .ok (.string "Hello, world!") ∧
      renderExample (table.restrict (reachableNames table redirected)) redirected = .ok .null := by
  have parsed : redirected.Parsed :=
    ⟨.object [("element", .string "A"), ("content", .string "B")], by decide, rfl⟩
  have reachable : reachableNames table redirected = ["A"] :=
    reachableNames_of_single (by decide) (by decide) (by decide)
  rw [reachable]
  exact ⟨table_parsed, parsed, rfl, rfl, rfl, rfl, rfl⟩

end Redirection

end Mson
