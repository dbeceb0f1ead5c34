import Mson.Proofs.Schema.Widening
import Mson.Schema.Rendering

/-!
# The form of rendered schemas

Whatever it renders, `renderSchemaWithin` comes to a schema of one of three forms: without
constraints, with a list of choices as its only constraint, or with a type. Only the last may carry
clauses of exclusive groups. Putting in a description and widening by null keep the form, so it is an
invariant of rendering at every depth.

`renderSchemaWithin_succ` separates what an element's kind contributes (`Schema.ofKind`) from the
description and the null that come afterwards.
-/
namespace Mson

namespace Schema

/-- The schema of an element before its description and flags, with `render` for the elements that
it is rendered from. -/
def ofKind (steps : Nat) (types : SymbolTable) (render : Element → Except RenderFault Schema)
    (element : Element) : Except RenderFault Schema :=
  match element.kind with
  | some .boolean | some .string | some .number => .ok (ofPrimitive element)
  | some .enum => .ok (ofChoices element.children)
  | some .array => ofArray render element.children
  | some .object | some .option => ofMembers steps types render element.children
  | some .optionSet => ofMembers steps types render [element]
  | some .reference =>
      match element.target?.bind (Mapping.get? types) with
      | some target => render target
      | none => .ok []
  | some .member => .ok []
  | none =>
      match Mapping.get? types element.name with
      | some base => render (resolveInheritance base element)
      | none => .ok []

theorem ofKind_of_object {steps : Nat} {types : SymbolTable}
    {render : Element → Except RenderFault Schema} {element : Element}
    (kind : element.kind = some .object ∨ element.kind = some .option) :
    ofKind steps types render element = ofMembers steps types render element.children := by
  unfold ofKind
  rcases kind with kind | kind <;> rw [kind]

end Schema

theorem renderSchemaWithin_succ (steps : Nat) (types : SymbolTable) (depth : Nat)
    (element : Element) :
    renderSchemaWithin steps types (depth + 1) element =
      Schema.ofKind steps types (renderSchemaWithin steps types depth) element >>= fun schema =>
        Schema.widenIfNullable element (Schema.describe element schema) := by
  rw [renderSchemaWithin, Schema.ofKind]
  cases element.kind with
  | none => cases Mapping.get? types element.name <;> rfl
  | some kind =>
    cases kind with
    | reference => cases element.target?.bind (Mapping.get? types) <;> rfl
    | _ => rfl

namespace Schema

/-- The keywords that go with a type. -/
def typedKeywords : List String :=
  ["type", "default", "items", "properties", "allOf", "required", descriptionKeyword]

/-- What a rendered schema looks like. -/
inductive Form (schema : Schema) : Prop
  | unconstrained
      (silent : ∀ keyword, keyword ≠ descriptionKeyword → Mapping.get? schema keyword = none)
  | enumerated (choices : List Value)
      (listed : Mapping.get? schema "enum" = some (.array choices))
      (alone : ∀ keyword, keyword ≠ "enum" → keyword ≠ descriptionKeyword →
        Mapping.get? schema keyword = none)
  | typed (name : String) (notNull : name ≠ nullType)
      (declared : Mapping.get? schema "type" = some (.string name) ∨
        Mapping.get? schema "type" = some (.array [.string name, .string nullType]))
      (only : ∀ keyword, keyword ∉ typedKeywords → Mapping.get? schema keyword = none)
      (exclusive : ∀ clauses, Mapping.get? schema "allOf" = some clauses →
        ∃ group groups, clauses = .array ((group :: groups).map exclusionClause))

theorem ne_of_foreign {keyword other : String} (foreign : keyword ∉ typedKeywords)
    (known : other ∈ typedKeywords) : keyword ≠ other :=
  fun same => foreign (same ▸ known)

theorem Form.nil : Form [] := .unconstrained fun _ _ => rfl

/-- A keyword that constrains nothing leaves the form as it is. -/
theorem Form.putDescription {schema : Schema} (form : schema.Form) (text : Value) :
    Form (Mapping.put schema descriptionKeyword text) := by
  have kept : ∀ keyword, keyword ≠ descriptionKeyword →
      Mapping.get? (Mapping.put schema descriptionKeyword text) keyword =
        Mapping.get? schema keyword :=
    fun keyword other => Mapping.get?_put_of_ne schema text (Ne.symm other)
  cases form with
  | unconstrained silent =>
    exact .unconstrained fun keyword other => (kept keyword other).trans (silent keyword other)
  | enumerated choices listed alone =>
    refine .enumerated choices ((kept _ (by decide)).trans listed) fun keyword noEnum other => ?_
    rw [kept keyword other, alone keyword noEnum other]
  | typed name notNull declared only exclusive =>
    refine .typed name notNull ?_ (fun keyword foreign => ?_) ?_
    · rw [kept _ (by decide)]
      exact declared
    · rw [kept keyword (ne_of_foreign foreign (by decide)), only keyword foreign]
    · rw [kept _ (by decide)]
      exact exclusive

theorem Form.describe {schema : Schema} (form : schema.Form) (element : Element) :
    Form (describe element schema) := by
  unfold Schema.describe
  split
  · exact form.putDescription _
  · exact form

/-! ## Widening -/

theorem widen_unconstrained {schema : Schema}
    (silent : ∀ keyword, keyword ≠ descriptionKeyword → Mapping.get? schema keyword = none) :
    widen schema = .ok schema := by
  have nothing : constraints schema = [] := by
    unfold constraints Mapping.erase
    rw [List.filter_eq_nil_iff]
    intro entry member constrains
    have named : entry.1 ∈ Mapping.names schema := List.mem_map_of_mem member
    exact Mapping.get?_eq_none_iff.mp (silent entry.1 (by simpa using constrains)) named
  exact widen_of_hasNull (.free (.of_none (silent "type" (by decide))) (silent "enum" (by decide))
    nothing)

theorem widen_enumerated {schema : Schema} {choices : List Value}
    (listed : Mapping.get? schema "enum" = some (.array choices))
    (alone : ∀ keyword, keyword ≠ "enum" → keyword ≠ descriptionKeyword →
      Mapping.get? schema keyword = none) :
    widen schema = .ok (if choices.any Value.isNull then schema
      else Mapping.put schema "enum" (.array (choices ++ [.null]))) := by
  have untyped : schema.Untyped := .of_none (alone "type" (by decide) (by decide))
  simp only [widen_of_untyped untyped, listed]
  rfl

/-- A schema with null among its types stays as it is. -/
theorem widen_nullable {schema : Schema} {name : String}
    (pair : Mapping.get? schema "type" = some (.array [.string name, .string nullType])) :
    widen schema = .ok schema :=
  widen_of_hasNull (.types pair (by simp))

theorem widen_typed {schema : Schema} {name : String} (notNull : name ≠ nullType)
    (declared : Mapping.get? schema "type" = some (.string name) ∨
      Mapping.get? schema "type" = some (.array [.string name, .string nullType])) :
    ∃ widened, widen schema = .ok widened ∧
      Mapping.get? widened "type" = some (.array [.string name, .string nullType]) ∧
      ∀ keyword, keyword ≠ "type" → Mapping.get? widened keyword = Mapping.get? schema keyword := by
  cases declared with
  | inl single =>
    refine ⟨Mapping.put schema "type" (.array [.string name, .string nullType]), ?_, ?_, ?_⟩
    · simp only [widen, single, if_neg notNull]
    · exact Mapping.get?_put_self ..
    · exact fun keyword other => Mapping.get?_put_of_ne _ _ (Ne.symm other)
  | inr pair => exact ⟨schema, widen_nullable pair, pair, fun _ _ => rfl⟩

/-- A rendered schema can be widened, and keeps its form. -/
theorem Form.exists_widen {schema : Schema} (form : schema.Form) :
    ∃ widened, widen schema = .ok widened ∧ widened.Form := by
  cases form with
  | unconstrained silent => exact ⟨schema, widen_unconstrained silent, .unconstrained silent⟩
  | enumerated choices listed alone =>
    refine ⟨_, widen_enumerated listed alone, ?_⟩
    split
    · exact .enumerated choices listed alone
    · refine .enumerated (choices ++ [.null]) (Mapping.get?_put_self ..) fun keyword other => ?_
      rw [Mapping.get?_put_of_ne _ _ (Ne.symm other)]
      exact alone keyword other
  | typed name notNull declared only exclusive =>
    obtain ⟨widened, success, pair, kept⟩ := widen_typed notNull declared
    refine ⟨widened, success, .typed name notNull (.inr pair) (fun keyword foreign => ?_) ?_⟩
    · rw [kept keyword (ne_of_foreign foreign (by decide)), only keyword foreign]
    · rw [kept _ (by decide)]
      exact exclusive

/-- The flags of an element leave its schema alone or widen it. -/
theorem eq_or_widen_of_widenIfNullable {schema widened : Schema} {element : Element}
    (success : widenIfNullable element schema = .ok widened) :
    widened = schema ∨ widen schema = .ok widened := by
  obtain ⟨nullable, _, success⟩ := bind_eq_ok_iff.mp success
  cases nullable with
  | false =>
    cases success
    exact .inl rfl
  | true => exact .inr (mapError_eq_ok_iff.mp success)

theorem Form.widenIfNullable {schema widened : Schema} (form : schema.Form) {element : Element}
    (success : widenIfNullable element schema = .ok widened) : widened.Form := by
  rcases eq_or_widen_of_widenIfNullable success with rfl | widens
  · exact form
  · obtain ⟨result, succeeds, formed⟩ := form.exists_widen
    cases succeeds.symm.trans widens
    exact formed

/-- Widening touches the type or the choices. -/
theorem Form.get?_widen {schema widened : Schema} (form : schema.Form)
    (success : widen schema = .ok widened) {keyword : String} (noType : keyword ≠ "type")
    (noEnum : keyword ≠ "enum") : Mapping.get? widened keyword = Mapping.get? schema keyword := by
  cases form with
  | unconstrained silent =>
    rw [widen_unconstrained silent] at success
    cases success
    rfl
  | enumerated choices listed alone =>
    rw [widen_enumerated listed alone] at success
    cases success
    split
    · rfl
    · exact Mapping.get?_put_of_ne _ _ (Ne.symm noEnum)
  | typed name notNull declared only exclusive =>
    obtain ⟨result, widens, -, kept⟩ := widen_typed notNull declared
    rw [success] at widens
    cases widens
    exact kept keyword noType

/-- The flags of an element touch the type or the choices. -/
theorem Form.get?_widenIfNullable {schema widened : Schema} (form : schema.Form) {element : Element}
    (success : Schema.widenIfNullable element schema = .ok widened) {keyword : String}
    (noType : keyword ≠ "type") (noEnum : keyword ≠ "enum") :
    Mapping.get? widened keyword = Mapping.get? schema keyword := by
  rcases eq_or_widen_of_widenIfNullable success with rfl | widens
  · rfl
  · exact form.get?_widen widens noType noEnum

theorem get?_describe_of_ne {element : Element} {schema : Schema} {keyword : String}
    (noDescription : keyword ≠ descriptionKeyword) :
    Mapping.get? (Schema.describe element schema) keyword = Mapping.get? schema keyword := by
  unfold Schema.describe
  split
  · exact Mapping.get?_put_of_ne _ _ (Ne.symm noDescription)
  · rfl

/-- The description and the flags of an element touch the description, the type and the choices. -/
theorem Form.get?_finished_of_ne {schema finished : Schema} (form : schema.Form) {element : Element}
    (success : Schema.widenIfNullable element (Schema.describe element schema) = .ok finished)
    {keyword : String} (noType : keyword ≠ "type") (noEnum : keyword ≠ "enum")
    (noDescription : keyword ≠ descriptionKeyword) :
    Mapping.get? finished keyword = Mapping.get? schema keyword := by
  rw [(form.describe element).get?_widenIfNullable success noType noEnum,
    get?_describe_of_ne noDescription]

/-- The keywords that the members of an object make. -/
def memberKeywords : List String := ["properties", "allOf", "required"]

theorem propertiesOf_congr {schema other : Schema}
    (kept : ∀ keyword ∈ memberKeywords, Mapping.get? schema keyword = Mapping.get? other keyword) :
    propertiesOf schema = propertiesOf other := by
  unfold propertiesOf
  rw [kept "properties" (by decide)]

/-- The description and the flags of an element leave alone what its members make. -/
theorem Form.get?_finished {schema finished : Schema} (form : schema.Form) {element : Element}
    (success : Schema.widenIfNullable element (Schema.describe element schema) = .ok finished)
    {keyword : String} (ofMembers : keyword ∈ memberKeywords) :
    Mapping.get? finished keyword = Mapping.get? schema keyword := by
  have apart : ∀ other ∉ memberKeywords, keyword ≠ other := fun other foreign same =>
    foreign (same ▸ ofMembers)
  exact form.get?_finished_of_ne success (apart _ (by decide)) (apart _ (by decide))
    (apart _ (by decide))

/-! ## What the kinds contribute -/

theorem ofPrimitive_keyword {element : Element} {keyword : String} (noType : keyword ≠ "type")
    (noDefault : keyword ≠ "default") : Mapping.get? (ofPrimitive element) keyword = none := by
  unfold ofPrimitive
  rw [Mapping.get?_cons, if_neg (Ne.symm noType)]
  split
  · rfl
  · rfl
  · exact if_neg (Ne.symm noDefault)

theorem ofPrimitive_form {element : Element} (notNull : element.name ≠ nullType) :
    Form (ofPrimitive element) := by
  refine .typed element.name notNull (.inl (Mapping.get?_cons_self ..)) (fun keyword foreign => ?_) ?_
  · exact ofPrimitive_keyword (ne_of_foreign foreign (by decide)) (ne_of_foreign foreign (by decide))
  · intro clauses found
    rw [ofPrimitive_keyword (by decide) (by decide)] at found
    cases found

theorem ofChoices_form (choices : List Element) : Form (ofChoices choices) := by
  refine .enumerated _ (Mapping.get?_cons_self ..) fun keyword other _ => ?_
  exact if_neg (Ne.symm other)

theorem itemSchema_keyword {items : List Schema} {keyword : String} (other : keyword ≠ "items") :
    Mapping.get? (itemSchema items) keyword = none := by
  unfold itemSchema
  split
  · rfl
  · exact if_neg (Ne.symm other)
  · simp only
    split <;> exact if_neg (Ne.symm other)

theorem ofArray_keyword {render : Element → Except RenderFault Schema} {items : List Element}
    {schema : Schema} (success : ofArray render items = .ok schema) {keyword : String}
    (noType : keyword ≠ "type") (noItems : keyword ≠ "items") :
    Mapping.get? schema keyword = none := by
  obtain ⟨schemas, _, rfl⟩ := map_eq_ok_iff.mp success
  rw [Mapping.get?_cons, if_neg (Ne.symm noType), itemSchema_keyword noItems]

theorem ofArray_form {render : Element → Except RenderFault Schema} {items : List Element}
    {schema : Schema} (success : ofArray render items = .ok schema) : schema.Form := by
  have declared : Mapping.get? schema "type" = some (.string "array") := by
    obtain ⟨schemas, _, rfl⟩ := map_eq_ok_iff.mp success
    exact Mapping.get?_cons_self ..
  refine .typed "array" (by decide) (.inl declared) (fun keyword foreign => ?_) ?_
  · exact ofArray_keyword success (ne_of_foreign foreign (by decide))
      (ne_of_foreign foreign (by decide))
  · intro clauses found
    rw [ofArray_keyword success (by decide) (by decide)] at found
    cases found

theorem ObjectParts.get?_toSchema (parts : ObjectParts) (keyword : String) :
    Mapping.get? parts.toSchema keyword =
      if keyword = "type" then some (.string "object")
      else if keyword = "properties" then some (.object parts.properties)
      else if keyword = "allOf" ∧ parts.exclusive ≠ [] then
        some (.array (parts.exclusive.map exclusionClause))
      else if keyword = "required" ∧ parts.required ≠ [] then
        some (.array (parts.required.map Value.string))
      else none := by
  unfold ObjectParts.toSchema
  rw [List.append_assoc, Mapping.get?_append, Mapping.get?_append]
  simp only [Mapping.get?_cons, Mapping.get?_nil, eq_comm (b := keyword), List.isEmpty_iff]
  by_cases type : keyword = "type"
  · simp [type]
  by_cases properties : keyword = "properties"
  · simp [properties]
  by_cases exclusive : keyword = "allOf"
  · by_cases none : parts.exclusive = [] <;> by_cases free : parts.required = [] <;>
      simp [exclusive, none, free, Mapping.get?_cons]
  by_cases none : parts.exclusive = [] <;> by_cases free : parts.required = [] <;>
    by_cases required : keyword = "required" <;>
      simp [type, properties, exclusive, required, none, free, Mapping.get?_cons,
        eq_comm (b := keyword)]

theorem ObjectParts.toSchema_form (parts : ObjectParts) : parts.toSchema.Form := by
  refine .typed "object" (by decide) (.inl ?_) (fun keyword foreign => ?_) ?_
  · rw [parts.get?_toSchema, if_pos rfl]
  · have noType : keyword ≠ "type" := ne_of_foreign foreign (by decide)
    have noProperties : keyword ≠ "properties" := ne_of_foreign foreign (by decide)
    have noExclusive : keyword ≠ "allOf" := ne_of_foreign foreign (by decide)
    have noRequired : keyword ≠ "required" := ne_of_foreign foreign (by decide)
    simp [parts.get?_toSchema, noType, noProperties, noExclusive, noRequired]
  · intro clauses found
    simp only [parts.get?_toSchema, String.reduceEq, if_false, true_and, false_and] at found
    split at found
    · rename_i some
      obtain ⟨group, groups, same⟩ := List.exists_cons_of_ne_nil some
      cases found
      exact ⟨group, groups, by rw [same]⟩
    · cases found

theorem ofMembers_form {steps : Nat} {types : SymbolTable}
    {render : Element → Except RenderFault Schema} {members : List Element} {schema : Schema}
    (success : ofMembers steps types render members = .ok schema) : schema.Form := by
  unfold ofMembers at success
  split at success
  · cases success
  · obtain ⟨parts, _, rfl⟩ := map_eq_ok_iff.mp success
    exact parts.toSchema_form

end Schema

/-- The name of an element of a kind is a name of the kind. -/
theorem Element.name_of_kind {element : Element} {kind : Kind} (found : element.kind = some kind) :
    element.name = kind.name ∨ (element.name, kind) ∈ Kind.aliases := by
  unfold Element.kind Kind.ofName? at found
  split at found
  · rename_i other aliased
    cases found
    right
    obtain ⟨before, after, split, -⟩ := List.lookup_eq_some_iff.mp aliased
    rw [split]
    exact List.mem_append_right _ List.mem_cons_self
  · left
    have named := List.find?_some found
    exact (of_decide_eq_true named).symm

theorem Element.name_of_primitive {element : Element} {kind : Kind}
    (found : element.kind = some kind) (primitive : kind.isPrimitive = true) :
    element.name = kind.name := by
  rcases Element.name_of_kind found with named | aliased
  · exact named
  · unfold Kind.aliases at aliased
    simp only [List.mem_cons, Prod.mk.injEq, List.not_mem_nil, or_false] at aliased
    rcases aliased with ⟨-, rfl⟩ | ⟨-, rfl⟩ <;> cases primitive

/-- What a kind contributes has a form if the schemas that it is put together from have one. -/
theorem Schema.ofKind_form {steps : Nat} {types : SymbolTable}
    {render : Element → Except RenderFault Schema}
    (forms : ∀ element schema, render element = .ok schema → schema.Form) {element : Element}
    {schema : Schema} (success : ofKind steps types render element = .ok schema) : schema.Form := by
  have primitive : ∀ kind : Kind, element.kind = some kind → kind.isPrimitive = true →
      (ofPrimitive element).Form := by
    intro kind found isPrimitive
    apply ofPrimitive_form
    rw [Element.name_of_primitive found isPrimitive]
    cases kind <;> revert isPrimitive <;> decide
  unfold ofKind at success
  split at success
  · cases success; exact primitive _ ‹_› rfl
  · cases success; exact primitive _ ‹_› rfl
  · cases success; exact primitive _ ‹_› rfl
  · cases success; exact ofChoices_form _
  · exact ofArray_form success
  · exact ofMembers_form success
  · exact ofMembers_form success
  · exact ofMembers_form success
  · split at success
    · exact forms _ _ success
    · cases success; exact .nil
  · cases success; exact .nil
  · split at success
    · exact forms _ _ success
    · cases success; exact .nil

/-- Every rendered schema has a form. -/
theorem renderSchemaWithin_form {steps : Nat} {types : SymbolTable} {depth : Nat}
    {element : Element} {schema : Schema}
    (success : renderSchemaWithin steps types depth element = .ok schema) : schema.Form := by
  induction depth generalizing element schema with
  | zero => cases success
  | succ depth ih =>
    rw [renderSchemaWithin_succ] at success
    obtain ⟨body, contributed, success⟩ := bind_eq_ok_iff.mp success
    have form : body.Form := Schema.ofKind_form (fun _ _ => ih) contributed
    exact (form.describe element).widenIfNullable success

/-- A rendered schema is one that the kind contributes, with a description and a null put in. -/
theorem exists_body_of_success {steps : Nat} {types : SymbolTable} {depth : Nat} {element : Element}
    {schema : Schema} (success : renderSchemaWithin steps types (depth + 1) element = .ok schema) :
    ∃ body, Schema.ofKind steps types (renderSchemaWithin steps types depth) element = .ok body ∧
      body.Form ∧ Schema.widenIfNullable element (Schema.describe element body) = .ok schema := by
  rw [renderSchemaWithin_succ] at success
  obtain ⟨body, contributed, finishes⟩ := bind_eq_ok_iff.mp success
  exact ⟨body, contributed, Schema.ofKind_form (fun _ _ => renderSchemaWithin_form) contributed,
    finishes⟩

end Mson
