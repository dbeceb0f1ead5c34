import Mson.Proofs.Rendering.BaseChain
import Mson.Proofs.Rendering.Success

/-!
# Members that override inherited ones

A member of a derived type is put in the place of the inherited one with its key. Mixins and option
sets have no key and are not replaced: one that comes after that place can give the property again,
and then gives the later definition. So the schema of an own member stands in the rendered object
exactly if nothing that comes after its place gives another one (`own_member_stands`).
-/
namespace Mson

variable {types : SymbolTable}

/-- What the parts before and after a member and the member itself make of its key: what comes before
is hidden, what comes after hides the member. -/
theorem ObjectSchema.get?_of_stands {key : String} {member : Element} {children : List Element}
    {schema : Schema} (object : ObjectSchema types children schema)
    (stands : Stands key member children) (slot : member.slot? = some key) :
    ∃ before after later own, children = before ++ member :: after ∧
      (∀ other ∈ after, other.slot? ≠ some key) ∧ ObjectSchema types after later ∧
      MemberSchema types member own ∧
      Mapping.get? (Schema.propertiesOf schema) key =
        (Mapping.get? (Schema.propertiesOf later) key).or (some (.object own)) := by
  obtain ⟨before, after, rfl, last⟩ := stands
  obtain ⟨hidden, rest, -, remaining, outer⟩ := object.append
  obtain ⟨single, later, here, following, inner⟩ := remaining.cons
  obtain ⟨own, shown, properties⟩ := here.of_slot slot
  refine ⟨before, after, later, own, rfl, last, following, shown, ?_⟩
  rw [outer, inner, properties, Mapping.get?_cons_self, Option.or_assoc, Option.some_or]

/-- In a derived type whose own members have different keys, each of them comes after all inherited
definitions of its key. It is shown with its own schema unless a mixin or an option set that comes
after it gives the property again, and then with the schema that these give. So own members always
stand where no base has mixins or option sets. -/
theorem own_member_stands {element : Element} {bases own : List Element}
    (chain : BaseChain types element.name bases) (kind : (element.over bases).kind = some .object)
    (content : element.content = .children own)
    (members : ∀ member ∈ own, member.isMember = true) (distinct : (slots own).Nodup) :
    (types.Parsed → element.Parsed → ∀ steps depth,
      Settled (renderSchemaWithin steps types depth element) →
        ∃ schema, renderSchemaWithin steps types depth element = .ok schema) ∧
    ∀ schema, ShowsSchema types element schema →
      ∀ member ∈ own, ∀ key, member.slot? = some key →
        ∃ before after later ownSchema,
          (element.over bases).children = before ++ member :: after ∧
          (∀ other ∈ after, Contributes types other key →
            other.isReference = true ∨ other.isOptionSet = true) ∧
          ObjectSchema types after later ∧ MemberSchema types member ownSchema ∧
          Mapping.get? (Schema.propertiesOf schema) key =
            (Mapping.get? (Schema.propertiesOf later) key).or (some (.object ownSchema)) ∧
          ((∀ base ∈ bases, ∀ child ∈ base.children,
              ¬ child.isReference = true ∧ ¬ child.isOptionSet = true) →
            Mapping.get? (Schema.propertiesOf schema) key = some (.object ownSchema)) := by
  refine ⟨fun parsedTypes parsed steps depth settled =>
    exists_schema_of_settled parsedTypes parsed settled, fun schema shown member among key slot => ?_⟩
  obtain ⟨inner, object, kept⟩ := (rendersMembers_over chain kind).objectSchema shown
  have same : Schema.propertiesOf schema = Schema.propertiesOf inner :=
    Schema.propertiesOf_congr kept
  have stands : Stands key member (element.over bases).children :=
    (stands_of_nodup distinct among slot).over content slot bases
  obtain ⟨before, after, later, ownSchema, split, last, following, ownShown, found⟩ :=
    object.get?_of_stands stands slot
  have source : ∀ other ∈ after, Contributes types other key →
      other.isReference = true ∨ other.isOptionSet = true := fun other among contributes =>
    contributes.source.resolve_left (last other among)
  refine ⟨before, after, later, ownSchema, split, source, following, ownShown, same ▸ found,
    fun plain => ?_⟩
  have nothing : Mapping.get? (Schema.propertiesOf later) key = none := by
    rw [Mapping.get?_eq_none_iff, following.mem_names_iff]
    rintro ⟨other, among, contributes⟩
    have child : other ∈ (element.over bases).children :=
      split ▸ List.mem_append_right _ (List.mem_cons_of_mem _ among)
    have noGroup : ¬ other.isReference = true ∧ ¬ other.isOptionSet = true := by
      rcases mem_children_over child with ownChild | ⟨base, isBase, inherited⟩
      · rw [Element.children, content] at ownChild
        have isMember : other.kind = some .member := of_decide_eq_true (members other ownChild)
        constructor <;> simp [Element.isReference, Element.isOptionSet, isMember]
      · exact plain base isBase other inherited
    exact (source other among contributes).elim noGroup.1 noGroup.2
  rw [same, found, nothing, Option.none_or]

namespace Redeclared

/-! An object is identified by a number, and a derived one by a text. -/

/-- A member that identifies an object by a value of a kind. -/
def identifier (kind : Kind) : Element :=
  ⟨"member", .member ⟨"string", .literal (.string "id"), [], []⟩
    (some ⟨kind.name, .absent, [], []⟩), [], []⟩

def base : Element := ⟨"object", .children [identifier .number], [], []⟩

def element : Element := ⟨"Base", .children [identifier .string], [], []⟩

theorem own_member_stands_string :
    ∃ schema ownSchema, renderSchema [("Base", base)] element = .ok schema ∧
      MemberSchema [("Base", base)] (identifier .string) ownSchema ∧
      Mapping.get? (Schema.propertiesOf schema) "id" = some (.object ownSchema) := by
  have chain : BaseChain [("Base", base)] element.name [base] :=
    .cons (by decide) rfl (.nil (.inl (by decide)))
  obtain ⟨-, standing⟩ := own_member_stands chain (by decide) rfl (by decide) (by decide)
  have shown : renderSchema [("Base", base)] element =
      .ok [("type", .string "object"), ("properties", .object [("id",
        .object [("type", .string "string")])])] := rfl
  obtain ⟨before, after, later, ownSchema, -, -, -, ownShown, -, plain⟩ :=
    standing _ ⟨_, _, shown⟩ _ List.mem_cons_self "id" (by decide)
  exact ⟨_, ownSchema, shown, ownShown, plain (by decide)⟩

/-- The object with the numeric identifier also includes another one, identified by a boolean. -/
def including : Element :=
  ⟨"object", .children [identifier .number, ⟨"ref", .literal (.string "Mix"), [], []⟩], [], []⟩

def table : SymbolTable :=
  [("Base", including), ("Mix", ⟨"object", .children [identifier .boolean], [], []⟩)]

/-- The text takes the place of the number, and the included boolean hides it. -/
theorem own_member_hidden :
    ∃ schema ownSchema, BaseChain table element.name [including] ∧
      (element.over [including]).kind = some .object ∧
      element.content = .children [identifier .string] ∧
      (identifier .string).slot? = some "id" ∧ renderSchema table element = .ok schema ∧
      MemberSchema table (identifier .string) ownSchema ∧
      Mapping.get? (Schema.propertiesOf schema) "id" =
        some (.object [("type", .string "boolean")]) ∧
      Mapping.get? (Schema.propertiesOf schema) "id" ≠ some (.object ownSchema) := by
  refine ⟨[("type", .string "object"), ("properties", .object [("id",
    .object [("type", .string "boolean")])])], [("type", .string "string")],
    .cons (by decide) rfl (.nil (.inl (by decide))), by decide, rfl, by decide, rfl,
    ⟨1, 1, rfl⟩, rfl, ?_⟩
  show some (Value.object [("type", .string "boolean")]) ≠ some (.object [("type", .string "string")])
  simp

end Redeclared

end Mson
