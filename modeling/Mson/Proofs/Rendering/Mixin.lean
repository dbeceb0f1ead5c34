import Mson.Proofs.Rendering.BaseChain
import Mson.Proofs.Rendering.Success

/-!
# Mixins and inheritance

An object whose only member is a mixin has the members of the declaration that the mixin names. An
element of that name is laid over the declaration and everything that this one inherits from. So both
are the same if nothing is inherited, and else the mixin lacks just what the bases contribute
(`mixin_shows_own`).
-/
namespace Mson

variable {types : SymbolTable}

/-! ## What a mixin includes -/

section Included

variable {reference : Element} (isReference : reference.isReference = true)

include isReference

theorem ObjectSchema.of_mixin {schema : Schema} (object : ObjectSchema types [reference] schema) :
    ObjectSchema types (includedChildren types reference) schema := by
  obtain ⟨steps, depth, success⟩ := object
  obtain ⟨expanded, added, expands, contributed, made⟩ := Schema.ofMembers_eq_ok_iff.mp success
  have included := expandWithin_mixin isReference expands
  exact ⟨steps, depth, Schema.ofMembers_eq_ok_iff.mpr ⟨_, _, included, contributed, made⟩⟩

theorem ObjectExample.of_mixin {entries : Mapping Value}
    (object : ObjectExample types [reference] entries) :
    ObjectExample types (includedChildren types reference) entries := by
  obtain ⟨steps, depth, success⟩ := object
  refine ⟨steps, depth, ?_⟩
  cases depth with
  | zero => rw [renderMembersWithin] at success; cases success
  | succ depth =>
    rw [renderMembersWithin] at success ⊢
    cases expands : expandWithin types steps [reference] with
    | none =>
      rw [expands] at success
      cases success
    | some expanded =>
      rw [expands] at success
      rw [expandWithin_mixin isReference expands]
      exact success

end Included

/-! ## The named element -/

/-- An element that is nothing but a name. -/
def Element.bare (name : String) : Element := ⟨name, .absent, [], []⟩

theorem resolveInheritance_bare (declaration : Element) (name : String) :
    resolveInheritance declaration (.bare name) = declaration := by
  cases declaration with
  | mk base content metadata attributes => cases content <;> rfl

/-- A name laid over its declaration is that declaration. -/
theorem Element.bare_over (name : String) (declaration : Element) (bases : List Element) :
    (bare name).over (declaration :: bases) = declaration.over bases := by
  rw [over_cons, resolveInheritance_bare]

theorem rendersMembers_bare {name : String} {declaration : Element} {bases : List Element}
    (chain : BaseChain types name (declaration :: bases))
    (object : (declaration.over bases).kind = some .object) :
    RendersMembers types (.bare name) (declaration.over bases).children := by
  have named : BaseChain types (Element.bare name).name (declaration :: bases) := chain
  rw [← Element.bare_over name] at object ⊢
  exact rendersMembers_over named object

/-! ## Comparison -/

/-- Whether everything that is rendered of an element is what the given members make. -/
structure ShowsMembers (types : SymbolTable) (element : Element) (members : List Element) :
    Prop where
  schema : ∀ schema, ShowsSchema types element schema →
    ∃ inner, ObjectSchema types members inner ∧
      ∀ keyword ∈ Schema.memberKeywords, Mapping.get? schema keyword = Mapping.get? inner keyword
  example_ : ∀ example_, ShowsExample types element example_ →
    ∃ entries, ObjectExample types members entries ∧ example_ = .object entries

namespace ShowsMembers

variable {element other reference : Element} {members : List Element}

theorem of_rendersMembers (leads : RendersMembers types element members) :
    ShowsMembers types element members :=
  ⟨fun _ => leads.objectSchema, fun _ => leads.objectExample⟩

theorem of_mixin (shows_ : ShowsMembers types element [reference])
    (isReference : reference.isReference = true) :
    ShowsMembers types element (includedChildren types reference) where
  schema schema shown := by
    obtain ⟨inner, object, kept⟩ := shows_.schema schema shown
    exact ⟨inner, object.of_mixin isReference, kept⟩
  example_ example_ shown := by
    obtain ⟨entries, object, same⟩ := shows_.example_ example_ shown
    exact ⟨entries, object.of_mixin isReference, same⟩

/-- Elements that show the same members have the same properties, exclusive groups and required
names. -/
theorem same_schema (one : ShowsMembers types element members)
    (two : ShowsMembers types other members) {first second : Schema}
    (shown : ShowsSchema types element first) (otherShown : ShowsSchema types other second)
    {keyword : String} (made : keyword ∈ Schema.memberKeywords) :
    Mapping.get? first keyword = Mapping.get? second keyword := by
  obtain ⟨inner, object, kept⟩ := one.schema first shown
  obtain ⟨otherInner, otherObject, otherKept⟩ := two.schema second otherShown
  rw [kept keyword made, otherKept keyword made, object.unique otherObject]

theorem same_example (one : ShowsMembers types element members)
    (two : ShowsMembers types other members) {first second : Value}
    (shown : ShowsExample types element first) (otherShown : ShowsExample types other second) :
    first = second := by
  obtain ⟨entries, object, rfl⟩ := one.example_ first shown
  obtain ⟨otherEntries, otherObject, rfl⟩ := two.example_ second otherShown
  rw [object.unique otherObject]

end ShowsMembers

/-- How an object that includes a declared type compares with an element of that type whose
declaration inherits from `bases`. -/
structure ShowsOwn (types : SymbolTable) (declaration : Element) (bases : List Element)
    (mixin named : Element) : Prop where
  /-- The mixin has the children of the declaration, without what is inherited. -/
  own : ShowsMembers types mixin declaration.children
  all : ShowsMembers types named (declaration.over bases).children
  /-- The named element has further properties where its bases contribute some; it inherits from
  them if all of it comes to a collection. -/
  properties : ∀ mixinSchema namedSchema, ShowsSchema types mixin mixinSchema →
    ShowsSchema types named namedSchema → ∀ name,
      name ∈ Mapping.names (Schema.propertiesOf namedSchema) ↔
        name ∈ Mapping.names (Schema.propertiesOf mixinSchema) ∨
          (∃ items, (declaration.over bases).content = .children items) ∧
            ∃ base ∈ bases, ∃ child ∈ base.children, Contributes types child name
  /-- Without inherited children both are the same. -/
  same : (∀ base ∈ bases, ∀ items, base.content ≠ .children items) →
    (∀ mixinSchema namedSchema, ShowsSchema types mixin mixinSchema →
      ShowsSchema types named namedSchema → ∀ keyword ∈ Schema.memberKeywords,
        Mapping.get? mixinSchema keyword = Mapping.get? namedSchema keyword) ∧
    ∀ mixinExample namedExample, ShowsExample types mixin mixinExample →
      ShowsExample types named namedExample → mixinExample = namedExample

section

variable {mixin reference declaration : Element} {name : String} {bases : List Element}

/-- An object whose only member is a mixin of a type that comes to an object has the type's own
members, and is the element of that type where nothing is inherited. -/
theorem mixin_shows_own (kind : mixin.kind = some .object) (only : mixin.children = [reference])
    (isReference : reference.isReference = true) (target : reference.target? = some name)
    (chain : BaseChain types name (declaration :: bases))
    (object : (declaration.over bases).kind = some .object) :
    ShowsOwn types declaration bases mixin (.bare name) ∧
      ∀ element ∈ [mixin, .bare name], ∀ steps depth,
        (types.Parsed → element.Parsed → Settled (renderSchemaWithin steps types depth element) →
          ∃ schema, renderSchemaWithin steps types depth element = .ok schema) ∧
        (Settled (renderExampleWithin steps types depth element) →
          ∃ example_, renderExampleWithin steps types depth element = .ok example_) := by
  have declared : Mapping.get? types name = some declaration := by
    cases chain with
    | cons _ found _ => exact found
  have included : includedChildren types reference = declaration.children :=
    includedChildren_of_target target declared
  have ofMixin : RendersMembers types mixin [reference] := only ▸ .object (.inl kind)
  have own : ShowsMembers types mixin declaration.children :=
    included ▸ (ShowsMembers.of_rendersMembers ofMixin).of_mixin isReference
  have all : ShowsMembers types (.bare name) (declaration.over bases).children :=
    .of_rendersMembers (rendersMembers_bare chain object)
  refine ⟨⟨own, all, fun mixinSchema namedSchema mixes names property => ?_, fun childless => ?_⟩,
    fun element _ steps depth => ⟨fun parsedTypes parsed =>
      exists_schema_of_settled parsedTypes parsed, exists_example_of_settled⟩⟩
  · obtain ⟨ofOwn, ownMembers, keptOwn⟩ := own.schema mixinSchema mixes
    obtain ⟨ofAll, allMembers, keptAll⟩ := all.schema namedSchema names
    rw [Schema.propertiesOf_congr keptOwn, Schema.propertiesOf_congr keptAll]
    exact mem_names_over_iff ownMembers allMembers
  · rw [Element.children_over_of_childless childless] at all
    exact ⟨fun _ _ mixes names _ made => own.same_schema all mixes names made,
      fun _ _ mixes names => own.same_example all mixes names⟩

end

namespace DerivedMixin

/-! An identified type, a type derived from it that adds a name, and an object that includes the
derived one. -/

def member (key : String) (kind : Kind) : Element :=
  ⟨"member", .member ⟨"string", .literal (.string key), [], []⟩
    (some ⟨kind.name, .absent, [], []⟩), [], []⟩

def identified : Element := ⟨"object", .children [member "id" .number], [], []⟩

def derived : Element := ⟨"Identified", .children [member "name" .string], [], []⟩

def table : SymbolTable := [("Identified", identified), ("Named", derived)]

def reference : Element := ⟨"ref", .literal (.string "Named"), [], []⟩

def including : Element := ⟨"object", .children [reference], [], []⟩

theorem chain : BaseChain table "Named" [derived, identified] :=
  .cons (by decide) rfl (.cons (by decide) rfl (.nil (.inl (by decide))))

theorem mixin_shows_own_derived : ShowsOwn table derived [identified] including (.bare "Named") :=
  (mixin_shows_own (by decide) rfl (by decide) rfl chain (by decide)).1

/-- The mixin has the name only, where an element of the derived type is identified too. -/
theorem mixin_lacks_inherited :
    ∃ mixinSchema namedSchema mixinExample namedExample,
      including.children = [reference] ∧ reference.isReference = true ∧
      reference.target? = some "Named" ∧ Kind.ofName? "Named" = none ∧
      BaseChain table "Named" [derived, identified] ∧
      (derived.over [identified]).kind = some .object ∧
      renderSchema table including = .ok mixinSchema ∧
      renderSchema table (.bare "Named") = .ok namedSchema ∧
      renderExample table including = .ok (.object mixinExample) ∧
      renderExample table (.bare "Named") = .ok (.object namedExample) ∧
      Mapping.names (Schema.propertiesOf mixinSchema) = ["name"] ∧
      Mapping.names (Schema.propertiesOf namedSchema) = ["id", "name"] ∧
      Mapping.names mixinExample = ["name"] ∧ Mapping.names namedExample = ["id", "name"] :=
  ⟨_, _, _, _, rfl, by decide, rfl, by decide, chain, by decide, rfl, rfl, rfl, rfl, rfl, rfl, rfl,
    rfl⟩

end DerivedMixin

end Mson
