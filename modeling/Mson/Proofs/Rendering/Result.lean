import Mson.Proofs.Rendering.Limit
import Mson.Proofs.Schema.Contribution

/-!
# What rendering comes to

Limits decide only how far rendering is computed. The relations here leave them out: each holds of the
one result that some limits give, and of none where rendering does not come to an end. That there is
only one is the same argument for all of them: a computation that only gets further with its limits
(`Grows`) has one result.
-/
namespace Mson

variable {α : Type} {types : SymbolTable}

/-- Whether a computation keeps its settled results at greater limits. -/
def Grows (compute : Nat → Nat → Except RenderFault α) : Prop :=
  ∀ ⦃steps more depth deeper⦄, steps ≤ more → depth ≤ deeper →
    Extends (compute more deeper) (compute steps depth)

theorem Grows.ok_mono {compute : Nat → Nat → Except RenderFault α} (grows : Grows compute)
    {steps more depth deeper : Nat} {value : α} (success : compute steps depth = .ok value)
    (enough : steps ≤ more) (deep : depth ≤ deeper) : compute more deeper = .ok value :=
  (grows enough deep (success ▸ settled_ok value)).trans success

theorem Grows.unique {compute : Nat → Nat → Except RenderFault α} (grows : Grows compute)
    {steps more depth deeper : Nat} {first second : α} (one : compute steps depth = .ok first)
    (other : compute more deeper = .ok second) : first = second := by
  have longer := grows.ok_mono one (Nat.le_max_left steps more) (Nat.le_max_left depth deeper)
  rw [grows.ok_mono other (Nat.le_max_right steps more) (Nat.le_max_right depth deeper)] at longer
  exact (Except.ok.inj longer).symm

/-- Whether some limits give the schema of an element. -/
def ShowsSchema (types : SymbolTable) (element : Element) (schema : Schema) : Prop :=
  ∃ steps depth, renderSchemaWithin steps types depth element = .ok schema

/-- Whether some limits give the example of an element. -/
def ShowsExample (types : SymbolTable) (element : Element) (example_ : Value) : Prop :=
  ∃ steps depth, renderExampleWithin steps types depth element = .ok example_

/-- Whether some limits give the schema of an object with the given members. -/
def ObjectSchema (types : SymbolTable) (members : List Element) (schema : Schema) : Prop :=
  ∃ steps depth,
    Schema.ofMembers steps types (renderSchemaWithin steps types depth) members = .ok schema

/-- Whether some limits give the entries of the example of an object with the given members. -/
def ObjectExample (types : SymbolTable) (members : List Element) (entries : Mapping Value) : Prop :=
  ∃ steps depth, renderMembersWithin steps types depth members = .ok entries

/-- Whether some limits give the schema of a member: that of its value with the member's own
description and flags. -/
def MemberSchema (types : SymbolTable) (member : Element) (schema : Schema) : Prop :=
  ∃ steps depth, Schema.memberSchema (renderSchemaWithin steps types depth) member = .ok schema

section Growth

theorem grows_schema (types : SymbolTable) (element : Element) :
    Grows fun steps depth => renderSchemaWithin steps types depth element :=
  fun _ _ _ _ enough deep => renderSchemaWithin_extends enough deep (throughout_agree_self types _)

theorem grows_example (types : SymbolTable) (element : Element) :
    Grows fun steps depth => renderExampleWithin steps types depth element :=
  fun _ _ _ _ enough deep =>
    (renderExampleWithin_extends enough deep).1 element (throughout_agree_self types _)

theorem grows_objectExample (types : SymbolTable) (members : List Element) :
    Grows fun steps depth => renderMembersWithin steps types depth members :=
  fun _ _ _ _ enough deep =>
    (renderExampleWithin_extends enough deep).2 members fun _ _ => throughout_agree_self types _

theorem grows_objectSchema (types : SymbolTable) (members : List Element) :
    Grows fun steps depth =>
      Schema.ofMembers steps types (renderSchemaWithin steps types depth) members :=
  fun _ _ _ _ enough deep => Schema.ofMembers_extends enough
    (fun _ agree => renderSchemaWithin_extends enough deep agree)
    fun _ _ => throughout_agree_self types _

theorem grows_propertySchema (types : SymbolTable) (member : Element) :
    Grows fun steps depth => Schema.propertySchema (renderSchemaWithin steps types depth) member := by
  intro steps more depth deeper enough deep
  unfold Schema.propertySchema
  split
  · rename_i value held
    exact Extends.bind (grows_schema types value enough deep) fun _ => .refl _
  · exact .refl _

theorem grows_memberSchema (types : SymbolTable) (member : Element) :
    Grows fun steps depth => Schema.memberSchema (renderSchemaWithin steps types depth) member :=
  fun _ _ _ _ enough deep =>
    Extends.bind (grows_propertySchema types member enough deep) fun _ => .refl _

end Growth

theorem ShowsSchema.unique {element : Element} {first second : Schema}
    (one : ShowsSchema types element first) (other : ShowsSchema types element second) :
    first = second := by
  obtain ⟨_, _, one⟩ := one
  obtain ⟨_, _, other⟩ := other
  exact (grows_schema types element).unique one other

theorem ShowsExample.unique {element : Element} {first second : Value}
    (one : ShowsExample types element first) (other : ShowsExample types element second) :
    first = second := by
  obtain ⟨_, _, one⟩ := one
  obtain ⟨_, _, other⟩ := other
  exact (grows_example types element).unique one other

theorem ObjectSchema.unique {members : List Element} {first second : Schema}
    (one : ObjectSchema types members first) (other : ObjectSchema types members second) :
    first = second := by
  obtain ⟨_, _, one⟩ := one
  obtain ⟨_, _, other⟩ := other
  exact (grows_objectSchema types members).unique one other

theorem ObjectExample.unique {members : List Element} {first second : Mapping Value}
    (one : ObjectExample types members first) (other : ObjectExample types members second) :
    first = second := by
  obtain ⟨_, _, one⟩ := one
  obtain ⟨_, _, other⟩ := other
  exact (grows_objectExample types members).unique one other

theorem MemberSchema.unique {member : Element} {first second : Schema}
    (one : MemberSchema types member first) (other : MemberSchema types member second) :
    first = second := by
  obtain ⟨_, _, one⟩ := one
  obtain ⟨_, _, other⟩ := other
  exact (grows_memberSchema types member).unique one other

end Mson
