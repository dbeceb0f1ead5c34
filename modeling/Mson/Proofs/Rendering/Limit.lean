import Mson.Proofs.Computation
import Mson.Proofs.Rendering.Visits
import Mson.Proofs.Schema.Form

/-!
# Limits of rendering

Rendering is given a depth and a number of expansion steps, and may be cut off by either. A result is
settled if it was not, and then it is the result at every greater limit: `longer` extends `shorter`
if it is the same wherever `shorter` is settled. The same comparison serves two symbol tables, which
need to agree only on the names that the visited elements look up. So rendering is a partial function
of the element and of the declarations it visits, and the limits decide only how far it is computed.
-/
namespace Mson

variable {α β : Type}

/-- Whether a fault says that rendering was cut off. -/
def RenderFault.isLimit : RenderFault → Bool
  | .depthExceeded | .expansionExceeded => true
  | _ => false

/-- Whether a rendering came to its own end. -/
def Settled (result : Except RenderFault α) : Prop :=
  ∀ fault, result = .error fault → fault.isLimit = false

/-- Whether a result is the same as another one wherever that is settled. -/
def Extends (longer shorter : Except RenderFault α) : Prop := Settled shorter → longer = shorter

@[simp] theorem settled_ok (value : α) : Settled (.ok value : Except RenderFault α) := by
  intro fault impossible
  cases impossible

theorem not_settled_depthExceeded : ¬ Settled (.error .depthExceeded : Except RenderFault α) :=
  fun settled => Bool.noConfusion (settled _ rfl)

theorem not_settled_expansionExceeded :
    ¬ Settled (.error .expansionExceeded : Except RenderFault α) :=
  fun settled => Bool.noConfusion (settled _ rfl)

theorem settled_bind_iff {step : Except RenderFault α} {next : α → Except RenderFault β} :
    Settled (step >>= next) ↔ Settled step ∧ ∀ value, step = .ok value → Settled (next value) := by
  cases step with
  | error fault =>
    constructor
    · exact fun settled => ⟨fun other same => settled other (by cases same; rfl),
        fun value impossible => by cases impossible⟩
    · exact fun ⟨settled, _⟩ other same => settled other (by cases same; rfl)
  | ok value =>
    constructor
    · exact fun settled => ⟨settled_ok value, fun other same => by cases same; exact settled⟩
    · exact fun ⟨_, settled⟩ => settled value rfl

theorem settled_mapError {ε : Type} {step : Except ε α} {f : ε → RenderFault}
    (ownFault : ∀ fault, (f fault).isLimit = false) : Settled (step.mapError f) := by
  intro fault found
  cases step with
  | ok value => cases found
  | error inner =>
    cases found
    exact ownFault inner

theorem settled_composes : Composes @Settled where
  ok := settled_ok
  bind first then_ := settled_bind_iff.mpr ⟨first, then_⟩

theorem Extends.refl (result : Except RenderFault α) : Extends result result := fun _ => rfl

theorem Extends.settled {longer shorter : Except RenderFault α} (extends_ : Extends longer shorter)
    (settled : Settled shorter) : Settled longer :=
  extends_ settled ▸ settled

theorem Extends.bind {longer shorter : Except RenderFault α}
    {next after : α → Except RenderFault β} (first : Extends longer shorter)
    (then_ : ∀ value, Extends (next value) (after value)) :
    Extends (longer >>= next) (shorter >>= after) := by
  intro settled
  rw [settled_bind_iff] at settled
  rw [first settled.1]
  cases shorter with
  | error fault => rfl
  | ok value => exact then_ value (settled.2 value rfl)

theorem Extends.mapM {longer shorter : α → Except RenderFault β} {items : List α}
    (each : ∀ item ∈ items, Extends (longer item) (shorter item)) :
    Extends (items.mapM longer) (items.mapM shorter) := by
  induction items with
  | nil => exact .refl _
  | cons item rest ih =>
    rw [List.mapM_cons, List.mapM_cons]
    exact (each item List.mem_cons_self).bind fun first =>
      (ih fun later member => each later (List.mem_cons_of_mem _ member)).bind fun _ => .refl _

theorem Extends.foldlM {longer shorter : β → α → Except RenderFault β} {items : List α} {start : β}
    (each : ∀ item ∈ items, ∀ before, Extends (longer before item) (shorter before item)) :
    Extends (items.foldlM longer start) (items.foldlM shorter start) := by
  induction items generalizing start with
  | nil => exact .refl _
  | cons item rest ih =>
    rw [List.foldlM_cons, List.foldlM_cons]
    exact (each item List.mem_cons_self start).bind fun next =>
      ih fun later member => each later (List.mem_cons_of_mem _ member)

/-! ## Tables that agree -/

/-- Whether a visit looks up the same in two tables. -/
def Agree (types others : SymbolTable) : Visit → Prop
  | .rendered element =>
      (element.kind = none →
        Mapping.get? others element.name = Mapping.get? types element.name) ∧
      (element.kind = some .reference →
        element.target?.bind (Mapping.get? others) = element.target?.bind (Mapping.get? types))
  | .listed element =>
      element.isReference = true → includedChildren others element = includedChildren types element

theorem throughout_agree_self (types : SymbolTable) (start : Visit) :
    Throughout types (Agree types types) start := by
  intro visit _
  cases visit with
  | rendered element => exact ⟨fun _ => rfl, fun _ => rfl⟩
  | listed element => exact fun _ => rfl

section Extension

variable {types others : SymbolTable} {steps more : Nat}

theorem expandWithin_extends (enough : steps ≤ more) {members expanded : List Element}
    (agree : ∀ member ∈ members, Throughout types (Agree types others) (.listed member))
    (success : expandWithin types steps members = some expanded) :
    expandWithin others more members = some expanded :=
  expandWithin_of_agree (fun _ agreed isReference => agreed.here isReference)
    (fun _ agreed isReference _ included => agreed.step (.mixin isReference included)) enough agree
    success

variable {render renderLonger : Element → Except RenderFault Schema}

theorem Schema.addMember_extends {member : Element}
    (visited : ∀ element, Step types (.listed member) (.rendered element) →
      Extends (renderLonger element) (render element)) (parts : ObjectParts) :
    Extends (addMember renderLonger parts member) (addMember render parts member) := by
  unfold Schema.addMember
  split
  · rename_i isOptionSet
    refine Extends.bind (Extends.foldlM fun option child found => ?_) fun _ => .refl _
    exact (visited option (.option isOptionSet child)).bind fun _ => .refl _
  · split
    · exact .refl _
    · rename_i key slot
      refine Extends.bind ?_ fun _ => .refl _
      unfold propertySchema
      split
      · rename_i value held
        exact (visited value (.value slot held)).bind fun _ => .refl _
      · exact .refl _

theorem Example.addMember_extends {render renderLonger : Element → Except RenderFault Value}
    {renderMembers renderMembersLonger : List Element → Except RenderFault (Mapping Value)}
    {member : Element}
    (rendered : ∀ element, Step types (.listed member) (.rendered element) →
      Extends (renderLonger element) (render element))
    (listed : ∀ members : List Element,
      (∀ other ∈ members, Step types (.listed member) (.listed other)) →
      Extends (renderMembersLonger members) (renderMembers members)) (entries : Mapping Value) :
    Extends (addMember renderLonger renderMembersLonger entries member)
      (addMember render renderMembers entries member) := by
  unfold Example.addMember
  split
  · rename_i isOptionSet
    split
    · exact .refl _
    · rename_i option rest children
      exact (listed option.children fun child among =>
        .firstOption isOptionSet (by rw [children]; rfl) among).bind fun _ => .refl _
  · split
    · rename_i key value slot held
      exact (rendered value (.value slot held)).bind fun _ => .refl _
    · exact .refl _

variable (enough : steps ≤ more)
  (each : ∀ element, Throughout types (Agree types others) (.rendered element) →
    Extends (renderLonger element) (render element))

include enough each

theorem Schema.ofMembers_extends {members : List Element}
    (agree : ∀ member ∈ members, Throughout types (Agree types others) (.listed member)) :
    Extends (ofMembers more others renderLonger members) (ofMembers steps types render members) := by
  unfold Schema.ofMembers
  cases success : expandWithin types steps members with
  | none => exact fun settled => absurd settled not_settled_expansionExceeded
  | some expanded =>
    rw [expandWithin_extends enough agree success]
    refine Extends.bind (Extends.foldlM fun member source parts => ?_) fun _ => .refl _
    obtain ⟨_, given, known, visits⟩ := visited_of_mem_expandWithin success member source
    have visited : ∀ element, Step types (.listed member) (.rendered element) →
        Extends (renderLonger element) (render element) :=
      fun element next => each element ((agree given known).visits (visits.tail next))
    exact Schema.addMember_extends visited parts

theorem Schema.ofKind_extends {element : Element}
    (agree : Throughout types (Agree types others) (.rendered element)) :
    Extends (ofKind more others renderLonger element) (ofKind steps types render element) := by
  unfold Schema.ofKind
  split
  · exact .refl _
  · exact .refl _
  · exact .refl _
  · exact .refl _
  · rename_i kind
    exact (Extends.mapM fun item child => each item (agree.step (.item kind child))).bind
      fun _ => .refl _
  · rename_i kind
    exact Schema.ofMembers_extends enough each fun member child =>
      agree.step (.objectMember (.inl kind) child)
  · rename_i kind
    exact Schema.ofMembers_extends enough each fun member child =>
      agree.step (.objectMember (.inr kind) child)
  · rename_i kind
    refine Schema.ofMembers_extends enough each fun member single => ?_
    rw [List.mem_singleton.mp single]
    exact agree.step (.optionSet kind)
  · rename_i kind
    rw [agree.here.2 kind]
    cases found : element.target?.bind (Mapping.get? types) with
    | none => exact .refl _
    | some target => exact each target (agree.step (.target kind found))
  · exact .refl _
  · rename_i kind
    rw [agree.here.1 kind]
    cases found : Mapping.get? types element.name with
    | none => exact .refl _
    | some base => exact each _ (agree.step (.inherit kind found))

end Extension

/-- A schema stays the same at greater limits, and in a table that agrees on what is visited. -/
theorem renderSchemaWithin_extends {types others : SymbolTable} {steps more depth deeper : Nat}
    (enough : steps ≤ more) (deep : depth ≤ deeper) {element : Element}
    (agree : Throughout types (Agree types others) (.rendered element)) :
    Extends (renderSchemaWithin more others deeper element)
      (renderSchemaWithin steps types depth element) := by
  induction depth generalizing deeper element with
  | zero => exact fun settled => absurd settled not_settled_depthExceeded
  | succ depth ih =>
    obtain ⟨deeper, rfl⟩ : ∃ lower, deeper = lower + 1 := ⟨deeper - 1, by omega⟩
    rw [renderSchemaWithin_succ, renderSchemaWithin_succ]
    exact (Schema.ofKind_extends enough
      (fun visited agreed => ih (by omega) agreed) agree).bind fun _ => .refl _

/-- An example stays the same at greater limits, and in a table that agrees on what is visited. -/
theorem renderExampleWithin_extends {types others : SymbolTable} {steps more depth deeper : Nat}
    (enough : steps ≤ more) (deep : depth ≤ deeper) :
    (∀ element, Throughout types (Agree types others) (.rendered element) →
      Extends (renderExampleWithin more others deeper element)
        (renderExampleWithin steps types depth element)) ∧
    ∀ members : List Element,
      (∀ member ∈ members, Throughout types (Agree types others) (.listed member)) →
      Extends (renderMembersWithin more others deeper members)
        (renderMembersWithin steps types depth members) := by
  induction depth generalizing deeper with
  | zero =>
    constructor
    · intro element _ settled
      rw [renderExampleWithin] at settled
      exact absurd settled not_settled_depthExceeded
    · intro members _ settled
      rw [renderMembersWithin] at settled
      exact absurd settled not_settled_depthExceeded
  | succ depth ih =>
    obtain ⟨deeper, rfl⟩ : ∃ lower, deeper = lower + 1 := ⟨deeper - 1, by omega⟩
    obtain ⟨renders, lists⟩ := ih (show depth ≤ deeper by omega)
    constructor
    · intro element agree
      rw [renderExampleWithin, renderExampleWithin]
      split
      · exact .refl _
      · exact .refl _
      · exact .refl _
      · rename_i kind
        split
        · exact .refl _
        · rename_i choice rest children
          exact renders choice (agree.step (.firstChoice kind (by rw [children]; rfl)))
      · rename_i kind
        exact (Extends.mapM fun item child => renders item (agree.step (.item kind child))).bind
          fun _ => .refl _
      · rename_i kind
        exact (lists _ fun member child =>
          agree.step (.objectMember (.inl kind) child)).bind fun _ => .refl _
      · rename_i kind
        exact (lists _ fun member child =>
          agree.step (.objectMember (.inr kind) child)).bind fun _ => .refl _
      · rename_i kind
        refine (lists _ fun member single => ?_).bind fun _ => .refl _
        rw [List.mem_singleton.mp single]
        exact agree.step (.optionSet kind)
      · rename_i kind
        rw [agree.here.2 kind]
        cases found : element.target?.bind (Mapping.get? types) with
        | none => exact .refl _
        | some target => exact renders target (agree.step (.target kind found))
      · exact .refl _
      · rename_i kind
        rw [agree.here.1 kind]
        cases found : Mapping.get? types element.name with
        | none => exact .refl _
        | some base => exact renders _ (agree.step (.inherit kind found))
    · intro members agree
      rw [renderMembersWithin, renderMembersWithin]
      cases success : expandWithin types steps members with
      | none => exact fun settled => absurd settled not_settled_expansionExceeded
      | some expanded =>
        rw [expandWithin_extends enough agree success]
        refine Extends.foldlM fun member source entries => ?_
        obtain ⟨_, given, known, visits⟩ := visited_of_mem_expandWithin success member source
        have agreeMember := (agree given known).visits visits
        exact Example.addMember_extends
          (fun element next => renders element (agreeMember.step next))
          (fun others next => lists others fun other among => agreeMember.step (next other among))
          entries

/-! ## Results do not depend on limits -/

theorem renderExampleWithin_unique {types : SymbolTable} {steps more depth deeper : Nat}
    {element : Element} {example_ other : Value}
    (first : renderExampleWithin steps types depth element = .ok example_)
    (second : renderExampleWithin more types deeper element = .ok other) : example_ = other := by
  have agree := throughout_agree_self types (.rendered element)
  have longer := (renderExampleWithin_extends (Nat.le_max_left steps more)
    (Nat.le_max_left depth deeper)).1 element agree (first ▸ settled_ok _)
  rw [(renderExampleWithin_extends (Nat.le_max_right steps more)
    (Nat.le_max_right depth deeper)).1 element agree (second ▸ settled_ok _), first, second] at longer
  exact (Except.ok.inj longer).symm

end Mson
