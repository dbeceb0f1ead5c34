import Mson.Proofs.Rendering.Limit

/-!
# Where rendering succeeds

Rendering parsed elements has no faults of its own. Their flags can be read and whatever is rendered
can be widened, so the only thing that keeps a result away is a limit: a settled rendering has
succeeded.
-/
namespace Mson

variable {α : Type}

/-- Whether a result can be missing for a limit only. -/
def OnlyLimits (result : Except RenderFault α) : Prop :=
  ∀ fault, result = .error fault → fault.isLimit = true

theorem onlyLimits_ok (value : α) : OnlyLimits (.ok value : Except RenderFault α) := by
  intro fault impossible
  cases impossible

theorem onlyLimits_limit {fault : RenderFault} (isLimit : fault.isLimit = true) :
    OnlyLimits (.error fault : Except RenderFault α) := by
  rintro other ⟨⟩
  exact isLimit

theorem onlyLimits_composes : Composes @OnlyLimits where
  ok := onlyLimits_ok
  bind {_ _ step _} first then_ := by
    cases step with
    | error fault =>
      rintro other ⟨⟩
      exact first fault rfl
    | ok value => exact then_ value rfl

theorem onlyLimits_of_exists {result : Except RenderFault α} (success : ∃ value, result = .ok value) :
    OnlyLimits result := by
  obtain ⟨value, rfl⟩ := success
  exact onlyLimits_ok value

/-- Without faults of its own, a rendering that came to its end has a result. -/
theorem Settled.exists_ok {result : Except RenderFault α} (settled : Settled result)
    (only : OnlyLimits result) : ∃ value, result = .ok value := by
  cases result with
  | ok value => exact ⟨value, rfl⟩
  | error fault =>
    have noLimit := settled fault rfl
    rw [only fault rfl] at noLimit
    cases noLimit

namespace Schema

theorem exists_flagged {element : Element} (listed : FlagsListed element.attributes)
    (flag : String) : ∃ present, flagged element flag = .ok present := by
  have readable : ∃ flags, element.flags = .ok flags := by
    unfold Element.flags
    split
    · exact ⟨_, rfl⟩
    · rename_i value found
      obtain ⟨texts, rfl⟩ := listed.2 value found
      unfold readFlags
      split
      · exact ⟨_, rfl⟩
      · exact ⟨_, rfl⟩
  obtain ⟨flags, read⟩ := readable
  exact ⟨flags.any fun found => found.string? = some flag, by
    rw [flagged, Element.hasFlag, read]
    rfl⟩

theorem Form.exists_widenIfNullable {schema : Schema} (form : schema.Form) {element : Element}
    (listed : FlagsListed element.attributes) :
    ∃ widened, Schema.widenIfNullable element schema = .ok widened := by
  obtain ⟨nullable, read⟩ := exists_flagged listed nullableFlag
  obtain ⟨widened, widens, -⟩ := form.exists_widen
  unfold Schema.widenIfNullable
  rw [read]
  cases nullable with
  | false => exact ⟨schema, rfl⟩
  | true =>
    refine ⟨widened, ?_⟩
    show widenOrFail schema = .ok widened
    rw [widenOrFail, widens]
    rfl

variable {types : SymbolTable} {render : Element → Except RenderFault Schema}
  (forms : ∀ element schema, render element = .ok schema → schema.Form)

include forms in
theorem addMember_onlyLimits {member : Element} (shaped : member.PartsWellShaped)
    (each : ∀ element, Step types (.listed member) (.rendered element) → OnlyLimits (render element))
    (parts : ObjectParts) : OnlyLimits (addMember render parts member) := by
  unfold addMember
  split
  · rename_i isOptionSet
    refine onlyLimits_composes.bind (onlyLimits_composes.foldlM fun option child found => ?_)
      fun _ _ => onlyLimits_ok _
    exact onlyLimits_composes.bind (each option (.option isOptionSet child)) fun _ _ => onlyLimits_ok _
  · split
    · exact onlyLimits_ok _
    · rename_i key slot
      refine onlyLimits_composes.bind ?_ fun described property =>
        onlyLimits_composes.bind (onlyLimits_of_exists (exists_flagged shaped.flags _)) fun _ _ =>
          onlyLimits_composes.bind (onlyLimits_of_exists ?_) fun _ _ => onlyLimits_ok _
      · unfold propertySchema
        split
        · rename_i value held
          exact onlyLimits_composes.bind (each value (.value slot held)) fun _ _ => onlyLimits_ok _
        · exact onlyLimits_ok _
      · refine Form.exists_widenIfNullable ?_ shaped.flags
        unfold propertySchema at property
        split at property
        · obtain ⟨schema, success, rfl⟩ := map_eq_ok_iff.mp property
          exact (forms _ schema success).describe member
        · cases property
          exact Form.nil.describe member

variable (parsed : types.Parsed)
  (each : ∀ element : Element, element.PartsWellShaped → OnlyLimits (render element))

include forms parsed each

theorem ofMembers_onlyLimits {steps : Nat} {members : List Element}
    (shaped : ∀ member ∈ members, member.PartsWellShaped) :
    OnlyLimits (ofMembers steps types render members) := by
  unfold ofMembers
  split
  · exact onlyLimits_limit rfl
  · rename_i expanded success
    refine onlyLimits_composes.bind (onlyLimits_composes.foldlM fun member source parts => ?_)
      fun _ _ => onlyLimits_ok _
    obtain ⟨_, given, known, visits⟩ := visited_of_mem_expandWithin success member source
    have givenShaped : (Visit.listed given).element.PartsWellShaped := shaped given known
    have memberShaped : member.PartsWellShaped := partsWellShaped_of_visits parsed givenShaped visits
    exact addMember_onlyLimits forms memberShaped
      (fun element next => each element (next.partsWellShaped parsed memberShaped)) parts

theorem ofKind_onlyLimits {steps : Nat} {element : Element} (shaped : element.PartsWellShaped) :
    OnlyLimits (ofKind steps types render element) := by
  have visited : ∀ visit, Step types (.rendered element) visit → visit.element.PartsWellShaped :=
    fun visit next => next.partsWellShaped parsed shaped
  unfold ofKind
  split
  · exact onlyLimits_ok _
  · exact onlyLimits_ok _
  · exact onlyLimits_ok _
  · exact onlyLimits_ok _
  · rename_i kind
    exact onlyLimits_composes.bind (onlyLimits_composes.mapM fun item child =>
      each item (visited _ (.item kind child))) fun _ _ => onlyLimits_ok _
  · rename_i kind
    exact ofMembers_onlyLimits forms parsed each fun member child =>
      visited _ (.objectMember (.inl kind) child)
  · rename_i kind
    exact ofMembers_onlyLimits forms parsed each fun member child =>
      visited _ (.objectMember (.inr kind) child)
  · refine ofMembers_onlyLimits forms parsed each fun member single => ?_
    rw [List.mem_singleton.mp single]
    exact shaped
  · rename_i kind
    split
    · rename_i target found
      exact each target (visited _ (.target kind found))
    · exact onlyLimits_ok _
  · exact onlyLimits_ok _
  · rename_i kind
    split
    · rename_i base found
      exact each _ (visited _ (.inherit kind found))
    · exact onlyLimits_ok _

end Schema

section

variable {types : SymbolTable} (parsed : types.Parsed) {steps depth : Nat}

include parsed

theorem renderSchemaWithin_onlyLimits {element : Element} (shaped : element.PartsWellShaped) :
    OnlyLimits (renderSchemaWithin steps types depth element) := by
  induction depth generalizing element with
  | zero => exact onlyLimits_limit rfl
  | succ depth ih =>
    rw [renderSchemaWithin_succ]
    have contributed : OnlyLimits
        (Schema.ofKind steps types (renderSchemaWithin steps types depth) element) :=
      Schema.ofKind_onlyLimits (fun _ _ => renderSchemaWithin_form) parsed (fun _ => ih) shaped
    refine onlyLimits_composes.bind contributed fun schema success => ?_
    apply onlyLimits_of_exists
    have form : schema.Form := Schema.ofKind_form (fun _ _ => renderSchemaWithin_form) success
    exact (form.describe element).exists_widenIfNullable shaped.flags

/-- A settled schema is there. -/
theorem exists_schema_of_settled {element : Element} (parsedElement : element.Parsed)
    (settled : Settled (renderSchemaWithin steps types depth element)) :
    ∃ schema, renderSchemaWithin steps types depth element = .ok schema :=
  settled.exists_ok (renderSchemaWithin_onlyLimits parsed parsedElement.wellShaped.parts)

end

theorem Example.addMember_onlyLimits {render : Element → Except RenderFault Value}
    {renderMembers : List Element → Except RenderFault (Mapping Value)}
    (each : ∀ element, OnlyLimits (render element))
    (lists : ∀ members, OnlyLimits (renderMembers members)) (entries : Mapping Value)
    (member : Element) : OnlyLimits (addMember render renderMembers entries member) := by
  unfold Example.addMember
  split
  · split
    · exact onlyLimits_ok _
    · exact onlyLimits_composes.bind (lists _) fun _ _ => onlyLimits_ok _
  · split
    · exact onlyLimits_composes.bind (each _) fun _ _ => onlyLimits_ok _
    · exact onlyLimits_ok _

/-- Examples read no flags and widen nothing, so no element has a fault of its own. -/
theorem renderExampleWithin_onlyLimits (steps : Nat) (types : SymbolTable) (depth : Nat) :
    (∀ element, OnlyLimits (renderExampleWithin steps types depth element)) ∧
      ∀ members, OnlyLimits (renderMembersWithin steps types depth members) := by
  induction depth with
  | zero =>
    exact ⟨fun element => by rw [renderExampleWithin]; exact onlyLimits_limit rfl,
      fun members => by rw [renderMembersWithin]; exact onlyLimits_limit rfl⟩
  | succ depth ih =>
    obtain ⟨each, lists⟩ := ih
    constructor
    · intro element
      rw [renderExampleWithin]
      split
      · exact onlyLimits_ok _
      · exact onlyLimits_ok _
      · exact onlyLimits_ok _
      · split
        · exact onlyLimits_ok _
        · exact each _
      · exact onlyLimits_composes.bind (onlyLimits_composes.mapM fun item _ => each item)
          fun _ _ => onlyLimits_ok _
      · exact onlyLimits_composes.bind (lists _) fun _ _ => onlyLimits_ok _
      · exact onlyLimits_composes.bind (lists _) fun _ _ => onlyLimits_ok _
      · exact onlyLimits_composes.bind (lists _) fun _ _ => onlyLimits_ok _
      · split
        · exact each _
        · exact onlyLimits_ok _
      · exact onlyLimits_ok _
      · split
        · exact each _
        · exact onlyLimits_ok _
    · intro members
      rw [renderMembersWithin]
      split
      · exact onlyLimits_limit rfl
      · exact onlyLimits_composes.foldlM fun member _ entries =>
          Example.addMember_onlyLimits each lists entries member

/-- A settled example is there. -/
theorem exists_example_of_settled {steps depth : Nat} {types : SymbolTable} {element : Element}
    (settled : Settled (renderExampleWithin steps types depth element)) :
    ∃ example_, renderExampleWithin steps types depth element = .ok example_ :=
  settled.exists_ok ((renderExampleWithin_onlyLimits steps types depth).1 element)

end Mson
