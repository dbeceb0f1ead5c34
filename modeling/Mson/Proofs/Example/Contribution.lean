import Mson.Proofs.Computation
import Mson.Proofs.Mapping
import Mson.Proofs.Rendering.Visits

/-!
# What members contribute to an example

As in the schema of an object, what a member adds to its example does not depend on what is there
already. `contribution` is that part by itself, and the entries of an example are the contributions of
its expanded members, written one after the other (`renderMembersWithin_eq_ok_iff`).
-/
namespace Mson

namespace Example

variable {render : Element → Except RenderFault Value}
  {renderMembers : List Element → Except RenderFault (Mapping Value)}

/-- What a member by itself shows: an option set its first option's children, any other member its
value. -/
def contribution (render : Element → Except RenderFault Value)
    (renderMembers : List Element → Except RenderFault (Mapping Value)) (member : Element) :
    Except RenderFault (Mapping Value) := do
  if member.isOptionSet then
    match member.children with
    | [] => return []
    | option :: _ => renderMembers option.children
  else match member.slot?, member.memberValue? with
    | some key, some value => do
        let example_ ← render value
        return if example_.isNull then [] else [(key, example_)]
    | _, _ => return []

/-- The contribution of a member, by what the member is. -/
inductive IsContribution (render : Element → Except RenderFault Value)
    (renderMembers : List Element → Except RenderFault (Mapping Value)) (member : Element) :
    Mapping Value → Prop
  | firstOption {option : Element} {entries : Mapping Value}
      (isOptionSet : member.isOptionSet = true) (first : member.children.head? = some option)
      (shown : renderMembers option.children = .ok entries) :
      IsContribution render renderMembers member entries
  | noOption (isOptionSet : member.isOptionSet = true) (none : member.children = []) :
      IsContribution render renderMembers member []
  | value {key : String} {value : Element} {example_ : Value} (slot : member.slot? = some key)
      (held : member.memberValue? = some value) (shown : render value = .ok example_)
      (visible : example_.isNull = false) :
      IsContribution render renderMembers member [(key, example_)]
  /-- A value with nothing to show. -/
  | hidden {key : String} {value : Element} {example_ : Value} (slot : member.slot? = some key)
      (held : member.memberValue? = some value) (shown : render value = .ok example_)
      (isNull : example_.isNull = true) : IsContribution render renderMembers member []
  /-- A member without a key or a value. -/
  | incomplete (noGroup : ¬ member.isOptionSet = true)
      (lacks : ∀ key value, member.slot? = some key → member.memberValue? ≠ some value) :
      IsContribution render renderMembers member []

theorem isContribution {member : Element} {added : Mapping Value}
    (success : contribution render renderMembers member = .ok added) :
    IsContribution render renderMembers member added := by
  unfold contribution at success
  split at success
  · rename_i isOptionSet
    split at success
    · rename_i none
      cases success
      exact .noOption isOptionSet none
    · rename_i option rest options
      exact .firstOption isOptionSet (by rw [options]; rfl) success
  · rename_i noGroup
    split at success
    · rename_i key value slot held
      obtain ⟨example_, shown, rfl⟩ := map_eq_ok_iff.mp success
      cases visible : example_.isNull with
      | true => exact .hidden slot held shown visible
      | false => exact .value slot held shown visible
    · rename_i lacks
      cases success
      exact .incomplete noGroup lacks

/-- Adding a member is writing what it contributes by itself. -/
theorem addMember_eq (entries : Mapping Value) (member : Element) :
    addMember render renderMembers entries member =
      contribution render renderMembers member >>= fun added =>
        .ok (Mapping.overwrite entries added) := by
  unfold addMember contribution
  by_cases isOptionSet : member.isOptionSet = true
  · simp only [if_pos isOptionSet]
    cases member.children with
    | nil => rfl
    | cons option rest => rfl
  · simp only [if_neg isOptionSet]
    cases member.slot? with
    | none => rfl
    | some key =>
      cases member.memberValue? with
      | none => rfl
      | some value =>
        show (render value >>= _) = ((render value >>= _) >>= _)
        cases render value with
        | error fault => rfl
        | ok example_ =>
          show Except.ok _ = Except.ok _
          cases example_.isNull <;> rfl

/-- The entries of an object are the contributions of its members, written in their order. -/
theorem foldlM_addMember_eq (members : List Element) (entries : Mapping Value) :
    members.foldlM (addMember render renderMembers) entries =
      members.mapM (contribution render renderMembers) >>= fun added =>
        .ok (Mapping.overwrite entries added.flatten) := by
  have flat : ∀ added : List (Mapping Value), added.foldl Mapping.overwrite entries =
      Mapping.overwrite entries added.flatten := fun added => List.foldl_flatten.symm
  rw [foldlM_eq_of_mapM addMember_eq]
  simp only [flat]

end Example

theorem renderMembersWithin_eq_ok_iff {steps depth : Nat} {types : SymbolTable}
    {members : List Element} {entries : Mapping Value} :
    renderMembersWithin steps types (depth + 1) members = .ok entries ↔
      ∃ expanded added, expandWithin types steps members = some expanded ∧
        expanded.mapM (Example.contribution (renderExampleWithin steps types depth)
          (renderMembersWithin steps types depth)) = .ok added ∧
        entries = Mapping.overwrite [] added.flatten := by
  rw [renderMembersWithin]
  constructor
  · intro success
    split at success
    · cases success
    · rename_i expanded expands
      rw [Example.foldlM_addMember_eq] at success
      obtain ⟨added, contributed, rfl⟩ := map_eq_ok_iff.mp success
      exact ⟨expanded, added, expands, contributed, rfl⟩
  · rintro ⟨expanded, added, expands, contributed, rfl⟩
    simp only [expands, Example.foldlM_addMember_eq, contributed]
    rfl

end Mson
