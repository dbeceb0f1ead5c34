import Mson.Proofs.Computation
import Mson.Proofs.Rendering.Visits
import Mson.Schema.Rendering

/-!
# What members contribute to the schema of an object

The schema of an object is put together member by member, and what a member adds does not depend on
what is there already. `contribution` is that part by itself: the properties of a member, the group
of names that an option set excludes, the required names (`isContribution` says which, by what the
member is). `addMember_eq` says that adding a member is appending its contribution, so an object's
schema is made of the contributions of its expanded members in their order (`ofMembers_eq_ok_iff`),
and of two that give one property the later one stands.
-/
namespace Mson.Schema

variable {render : Element → Except RenderFault Schema}

/-- Adds parts that come later: their properties hide those of the same name. -/
def ObjectParts.append (parts later : ObjectParts) : ObjectParts where
  properties := Mapping.overwrite parts.properties later.properties
  exclusive := parts.exclusive ++ later.exclusive
  required := later.required.foldl addName parts.required

/-- The schema of a member's value with the member's own description, widened by null if the member is
nullable. -/
def memberSchema (render : Element → Except RenderFault Schema) (member : Element) :
    Except RenderFault Schema := do
  let schema ← propertySchema render member
  widenIfNullable member schema

/-- What a member by itself adds to an object. Its properties may name something twice: options of
one set may share names. -/
def contribution (render : Element → Except RenderFault Schema) (member : Element) :
    Except RenderFault ObjectParts := do
  if member.isOptionSet then
    let options ← member.children.mapM render
    let properties := options.flatMap propertiesOf
    return ⟨properties, [(Mapping.names properties).foldl addName []], []⟩
  else match member.slot? with
    | none => return ⟨[], [], []⟩
    | some key =>
        let schema ← propertySchema render member
        let required ← flagged member requiredFlag
        let schema ← widenIfNullable member schema
        return ⟨[(key, .object schema)], [], if required then [key] else []⟩

/-! ## Names -/

/-- A name is its own key. -/
theorem places_addName : Places (fun name : String => some name) addName where
  nil _ := rfl
  replace {item first name} named same rest := by
    have sameName : first = item := Option.some.inj (same.trans named.symm)
    simp [addName, sameName]
  pass {item first} other rest := by
    have different : item ≠ first := fun same => other item rfl (congrArg some same.symm)
    simp only [addName, List.contains_cons, beq_eq_false_iff_ne.mpr different, Bool.false_or]
    split <;> rfl

theorem foldl_addName_nil (names : List String) : names.foldl addName [] = names.eraseDups := by
  simpa using places_addName.keys_foldl names

theorem nodup_eraseDups (names : List String) : names.eraseDups.Nodup := by
  rw [← foldl_addName_nil]
  have nothing : (([] : List String).filterMap some).Nodup := List.nodup_nil
  simpa using places_addName.nodup_keys_foldl names nothing

theorem mem_names_flatMap {α β : Type} {items : List α} {entries : α → Mapping β} {name : String} :
    name ∈ Mapping.names (items.flatMap entries) ↔
      ∃ item ∈ items, name ∈ Mapping.names (entries item) := by
  unfold Mapping.names
  rw [List.map_flatMap, List.mem_flatMap]

/-! ## Adding a member -/

theorem foldlM_addOption_eq (options : List Element) (found : Mapping Value × List String) :
    options.foldlM (addOption render) found = options.mapM render >>= fun schemas =>
      .ok (schemas.foldl (fun found schema => (Mapping.overwrite found.1 (propertiesOf schema),
        (Mapping.names (propertiesOf schema)).foldl addName found.2)) found) :=
  foldlM_eq_of_mapM (fun _ _ => rfl) options found

theorem foldl_options_eq (schemas : List Schema) (found : Mapping Value × List String) :
    schemas.foldl (fun found schema => (Mapping.overwrite found.1 (propertiesOf schema),
        (Mapping.names (propertiesOf schema)).foldl addName found.2)) found =
      (Mapping.overwrite found.1 (schemas.flatMap propertiesOf),
        (Mapping.names (schemas.flatMap propertiesOf)).foldl addName found.2) := by
  induction schemas generalizing found with
  | nil => rfl
  | cons schema rest ih =>
    rw [List.foldl_cons, ih, List.flatMap_cons, Mapping.overwrite_append]
    simp only [Mapping.names, List.map_append, List.foldl_append]

/-- Adding a member is appending what it contributes by itself. -/
theorem addMember_eq (parts : ObjectParts) (member : Element) :
    addMember render parts member =
      contribution render member >>= fun added => .ok (parts.append added) := by
  unfold addMember contribution
  split
  · rw [foldlM_addOption_eq]
    cases member.children.mapM render with
    | error fault => rfl
    | ok schemas =>
      show Except.ok _ = Except.ok _
      rw [foldl_options_eq]
      rfl
  · cases member.slot? with
    | none =>
      show Except.ok parts = Except.ok (parts.append ⟨[], [], []⟩)
      unfold ObjectParts.append
      rw [List.append_nil]
      rfl
    | some key =>
      cases propertySchema render member with
      | error fault => rfl
      | ok described =>
        cases flagged member requiredFlag with
        | error fault => rfl
        | ok required =>
          show (widenIfNullable member described >>= _) = ((widenIfNullable member described >>= _) >>= _)
          cases widenIfNullable member described with
          | error fault => rfl
          | ok widened =>
            show Except.ok _ = Except.ok _
            unfold ObjectParts.append
            rw [List.append_nil]
            cases required <;> rfl

/-- The parts of an object are the contributions of its members, appended in their order. -/
theorem foldlM_addMember_eq (members : List Element) (parts : ObjectParts) :
    members.foldlM (addMember render) parts =
      members.mapM (contribution render) >>= fun added =>
        .ok (added.foldl ObjectParts.append parts) :=
  foldlM_eq_of_mapM addMember_eq members parts

theorem properties_foldl_append (added : List ObjectParts) (parts : ObjectParts) :
    (added.foldl ObjectParts.append parts).properties =
      Mapping.overwrite parts.properties (added.flatMap ObjectParts.properties) := by
  induction added generalizing parts with
  | nil => rfl
  | cons first rest ih =>
    rw [List.foldl_cons, ih, List.flatMap_cons, Mapping.overwrite_append]
    rfl

theorem exclusive_foldl_append (added : List ObjectParts) (parts : ObjectParts) :
    (added.foldl ObjectParts.append parts).exclusive =
      parts.exclusive ++ added.flatMap ObjectParts.exclusive := by
  induction added generalizing parts with
  | nil => simp
  | cons first rest ih =>
    rw [List.foldl_cons, ih, List.flatMap_cons, ← List.append_assoc]
    rfl

theorem required_foldl_append (added : List ObjectParts) (parts : ObjectParts) :
    (added.foldl ObjectParts.append parts).required =
      (added.flatMap ObjectParts.required).foldl addName parts.required := by
  induction added generalizing parts with
  | nil => rfl
  | cons first rest ih =>
    rw [List.foldl_cons, ih, List.flatMap_cons, List.foldl_append]
    rfl

/-! ## What a member contributes -/

/-- The contribution of a member, by what the member is. -/
inductive IsContribution (render : Element → Except RenderFault Schema) (member : Element) :
    ObjectParts → Prop
  /-- An option set contributes the properties of all its options and excludes their names. -/
  | optionSet {options : List Schema} (isOptionSet : member.isOptionSet = true)
      (rendered : member.children.mapM render = .ok options) :
      IsContribution render member ⟨options.flatMap propertiesOf,
        [(Mapping.names (options.flatMap propertiesOf)).eraseDups], []⟩
  /-- A member with a key contributes one property, its schema. -/
  | member {key : String} {schema : Schema} {required : Bool} (slot : member.slot? = some key)
      (shown : memberSchema render member = .ok schema)
      (flag : member.hasFlag requiredFlag = .ok required) :
      IsContribution render member ⟨[(key, .object schema)], [], if required then [key] else []⟩
  | other (noGroup : ¬ member.isOptionSet = true) (noSlot : member.slot? = none) :
      IsContribution render member ⟨[], [], []⟩

theorem isContribution {member : Element} {added : ObjectParts}
    (success : contribution render member = .ok added) : IsContribution render member added := by
  unfold contribution at success
  split at success
  · rename_i isOptionSet
    obtain ⟨options, rendered, rfl⟩ := map_eq_ok_iff.mp success
    rw [foldl_addName_nil]
    exact .optionSet isOptionSet rendered
  · rename_i noGroup
    split at success
    · rename_i noSlot
      cases success
      exact .other noGroup noSlot
    · rename_i key slot
      obtain ⟨described, property, success⟩ := bind_eq_ok_iff.mp success
      obtain ⟨required, flagged, success⟩ := bind_eq_ok_iff.mp success
      obtain ⟨schema, widens, rfl⟩ := map_eq_ok_iff.mp success
      exact .member slot (bind_eq_ok_iff.mpr ⟨described, property, widens⟩)
        (mapError_eq_ok_iff.mp flagged)

theorem contribution_of_slot {member : Element} {key : String} {added : ObjectParts}
    (slot : member.slot? = some key) (success : contribution render member = .ok added) :
    ∃ schema, memberSchema render member = .ok schema ∧ added.properties = [(key, .object schema)] := by
  cases isContribution success with
  | optionSet isOptionSet _ => exact absurd isOptionSet (not_isOptionSet_of_slot slot)
  | member same shown _ =>
    cases same.symm.trans slot
    exact ⟨_, shown, rfl⟩
  | other _ noSlot => cases noSlot.symm.trans slot

theorem contribution_of_isOptionSet {group : Element} {added : ObjectParts}
    (isOptionSet : group.isOptionSet = true) (success : contribution render group = .ok added) :
    ∃ options, group.children.mapM render = .ok options ∧
      added = ⟨options.flatMap propertiesOf,
        [(Mapping.names (options.flatMap propertiesOf)).eraseDups], []⟩ := by
  cases isContribution success with
  | optionSet _ rendered => exact ⟨_, rendered, rfl⟩
  | member slot _ _ => exact absurd isOptionSet (not_isOptionSet_of_slot slot)
  | other noGroup _ => exact absurd isOptionSet noGroup

/-! ## The schema of an object -/

@[simp] theorem propertiesOf_toSchema (parts : ObjectParts) :
    propertiesOf parts.toSchema = parts.properties := by
  unfold propertiesOf ObjectParts.toSchema
  rfl

theorem ofMembers_eq_ok_iff {steps : Nat} {types : SymbolTable} {members : List Element}
    {schema : Schema} :
    ofMembers steps types render members = .ok schema ↔
      ∃ expanded added, expandWithin types steps members = some expanded ∧
        expanded.mapM (contribution render) = .ok added ∧
        schema = (added.foldl ObjectParts.append ⟨[], [], []⟩).toSchema := by
  unfold ofMembers
  constructor
  · intro success
    split at success
    · cases success
    · rename_i expanded expands
      rw [foldlM_addMember_eq] at success
      obtain ⟨parts, folded, rfl⟩ := map_eq_ok_iff.mp success
      obtain ⟨added, contributed, rfl⟩ := map_eq_ok_iff.mp folded
      exact ⟨expanded, added, expands, contributed, rfl⟩
  · rintro ⟨expanded, added, expands, contributed, rfl⟩
    simp only [expands, foldlM_addMember_eq, contributed]
    rfl

end Mson.Schema
