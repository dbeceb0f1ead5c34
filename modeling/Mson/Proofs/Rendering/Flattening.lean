import Mson.Proofs.Rendering.BaseChain

/-!
# Rendering flattened elements

An element of a named type is rendered down its chain of declarations, and on the way back each level
puts in its description and its null once more. The levels get their annotations from the derived end,
so what a level has the flattened element has too (`Element.Retains`), and what the flattened element
has is in its schema already: putting it in again changes nothing (`Schema.Form.finish_again`). Rendering
an element is thus rendering the flattened one, with as many levels less as the chain is long
(`flattened_renders_same`).
-/
namespace Mson

variable {types : SymbolTable}

/-! ## Annotations along a chain -/

/-- Whether an element has every annotation of another one. -/
structure Element.Retains (element retained : Element) : Prop where
  metadata : ∀ name value, Mapping.get? retained.metadata name = some value →
    Mapping.get? element.metadata name = some value
  attributes : ∀ name value, Mapping.get? retained.attributes name = some value →
    Mapping.get? element.attributes name = some value

namespace Element

theorem Retains.refl (element : Element) : element.Retains element :=
  ⟨fun _ _ found => found, fun _ _ found => found⟩

theorem Retains.trans {first second third : Element} (one : second.Retains first)
    (other : third.Retains second) : third.Retains first :=
  ⟨fun name value found => other.metadata name value (one.metadata name value found),
    fun name value found => other.attributes name value (one.attributes name value found)⟩

theorem AnnotationsDistinct.resolveInheritance {base : Element} (distinct : base.AnnotationsDistinct)
    (derived : Element) : (resolveInheritance base derived).AnnotationsDistinct :=
  ⟨distinct.metadata.overwrite _, distinct.attributes.overwrite _⟩

/-- The annotations of a derived element replace those of its base. -/
theorem retains_resolveInheritance {derived : Element} (distinct : derived.AnnotationsDistinct)
    (base : Element) : (resolveInheritance base derived).Retains derived where
  metadata name value found := by
    show Mapping.get? (Mapping.overwrite base.metadata derived.metadata) name = some value
    rw [Mapping.get?_overwrite _ distinct.metadata, found, Option.some_or]
  attributes name value found := by
    show Mapping.get? (Mapping.overwrite base.attributes derived.attributes) name = some value
    rw [Mapping.get?_overwrite _ distinct.attributes, found, Option.some_or]

theorem retains_over {element : Element} {bases : List Element}
    (distinct : element.AnnotationsDistinct)
    (distinctBases : ∀ base ∈ bases, base.AnnotationsDistinct) :
    (element.over bases).Retains element := by
  induction bases generalizing element with
  | nil => exact .refl element
  | cons base rest ih =>
    obtain ⟨distinctBase, distinctRest⟩ := List.forall_mem_cons.mp distinctBases
    have further := ih (distinctBase.resolveInheritance element) distinctRest
    exact (retains_resolveInheritance distinct base).trans further

variable {element retained : Element}

theorem Retains.description? (retains : element.Retains retained) {text : Json}
    (described : retained.description? = some text) : element.description? = some text := by
  have present : Mapping.get? retained.metadata "description" = some text ∧ text ≠ .null := by
    unfold Element.description? at described
    split at described
    · cases described
    · rename_i notNull
      exact ⟨described, fun isNull => notNull (isNull ▸ described)⟩
  unfold Element.description?
  rw [retains.metadata _ _ present.1]
  split
  · rename_i isNull
    exact absurd (Option.some.inj isNull) present.2
  · rfl

/-- Where an element has flags at all, they are those of the element that retains it. -/
theorem Retains.hasFlag_cases (retains : element.Retains retained) (flag : String) :
    retained.hasFlag flag = .ok false ∨ retained.hasFlag flag = element.hasFlag flag := by
  cases found : Mapping.get? retained.attributes flagsAttribute with
  | none =>
    left
    simp only [hasFlag, flags, found]
    rfl
  | some value =>
    right
    simp only [hasFlag, flags, found, retains.attributes _ _ found]

end Element

/-! ## One level -/

namespace Schema

/-- A schema that has been given the description and the null of an element has those of every element
that this one retains. -/
theorem Form.finish_again {schema finished : Schema} (form : schema.Form)
    {element retained : Element} (retains : element.Retains retained)
    (success : Schema.widenIfNullable element (Schema.describe element schema) = .ok finished) :
    Schema.widenIfNullable retained (Schema.describe retained finished) = .ok finished := by
  have formDescribed := form.describe element
  have described : Schema.describe retained finished = finished := by
    cases present : retained.description? with
    | none => simp only [Schema.describe, present]
    | some text =>
      have kept : Mapping.get? finished descriptionKeyword =
          Mapping.get? (Schema.describe element schema) descriptionKeyword :=
        formDescribed.get?_widenIfNullable success (by decide) (by decide)
      have there : Mapping.get? finished descriptionKeyword = some (.ofJson text) := by
        rw [kept]
        simp only [Schema.describe, retains.description? present, Mapping.get?_put_self]
      simp only [Schema.describe, present, Mapping.put_of_get? there]
  rw [described]
  obtain ⟨nullable, read, widens⟩ := bind_eq_ok_iff.mp success
  rcases retains.hasFlag_cases nullableFlag with unflagged | same
  · simp only [Schema.widenIfNullable, flagged, unflagged]
    rfl
  · have readAgain : flagged retained nullableFlag = .ok nullable := by
      rw [← read, flagged, flagged, same]
    rw [Schema.widenIfNullable, readAgain]
    cases nullable with
    | false => rfl
    | true =>
      have widened : Schema.widen (Schema.describe element schema) = .ok finished :=
        mapError_eq_ok_iff.mp widens
      show widenOrFail finished = .ok finished
      rw [widenOrFail, widen_widen widened]
      rfl

end Schema

/-- Whatever is rendered of an element has the description and the null of every element that this one
retains. -/
theorem finish_rendered {steps depth : Nat} {element retained : Element}
    (retains : element.Retains retained) :
    (renderSchemaWithin steps types depth element >>= fun schema =>
        Schema.widenIfNullable retained (Schema.describe retained schema)) =
      renderSchemaWithin steps types depth element := by
  cases outcome : renderSchemaWithin steps types depth element with
  | error fault => rfl
  | ok finished =>
    cases depth with
    | zero => cases outcome
    | succ depth =>
      obtain ⟨body, -, form, finishes⟩ := exists_body_of_success outcome
      exact form.finish_again retains finishes

/-! ## Whole chains -/

section Chain

variable {element : Element} {bases : List Element} (chain : BaseChain types element.name bases)

include chain

theorem renderExampleWithin_over (steps depth : Nat) :
    renderExampleWithin steps types (depth + bases.length) element =
      renderExampleWithin steps types depth (element.over bases) := by
  induction bases generalizing element with
  | nil => rfl
  | cons base rest ih =>
    cases chain with
    | cons named found chain =>
      have kind : element.kind = none := named
      have laidOver : BaseChain types (resolveInheritance base element).name rest := chain
      rw [Element.over_cons, ← ih laidOver, List.length_cons, ← Nat.add_assoc, renderExampleWithin]
      simp only [kind, found]

theorem renderSchemaWithin_over (distinct : element.AnnotationsDistinct)
    (distinctBases : ∀ base ∈ bases, base.AnnotationsDistinct) (steps depth : Nat) :
    renderSchemaWithin steps types (depth + bases.length) element =
      renderSchemaWithin steps types depth (element.over bases) := by
  have retains := Element.retains_over distinct distinctBases
  induction bases generalizing element with
  | nil => rfl
  | cons base rest ih =>
    cases chain with
    | cons named found chain =>
      have kind : element.kind = none := named
      obtain ⟨distinctBase, distinctRest⟩ := List.forall_mem_cons.mp distinctBases
      have distinctDerived := distinctBase.resolveInheritance element
      have below : Schema.ofKind steps types (renderSchemaWithin steps types (depth + rest.length))
          element = renderSchemaWithin steps types depth (element.over (base :: rest)) := by
        simp only [Schema.ofKind, kind, found]
        exact ih chain distinctDerived distinctRest
          (Element.retains_over distinctDerived distinctRest)
      rw [List.length_cons, ← Nat.add_assoc, renderSchemaWithin_succ, below, finish_rendered retains]

end Chain

/-- An element of a named type is rendered as the element laid over its whole chain of declarations:
both come to the same schema, to the order of its keywords, and to the same example, and both come to
none where rendering does not end. -/
theorem flattened_renders_same {element : Element} {bases : List Element}
    (chain : BaseChain types element.name bases) (distinct : element.AnnotationsDistinct)
    (distinctBases : ∀ base ∈ bases, base.AnnotationsDistinct) :
    (∀ steps depth,
      renderSchemaWithin steps types (depth + bases.length) element =
        renderSchemaWithin steps types depth (element.over bases) ∧
      renderExampleWithin steps types (depth + bases.length) element =
        renderExampleWithin steps types depth (element.over bases)) ∧
    (∀ schema, ShowsSchema types element schema ↔ ShowsSchema types (element.over bases) schema) ∧
    ∀ example_, ShowsExample types element example_ ↔
      ShowsExample types (element.over bases) example_ := by
  have schemas := renderSchemaWithin_over chain distinct distinctBases
  have examples := renderExampleWithin_over chain
  refine ⟨fun steps depth => ⟨schemas steps depth, examples steps depth⟩, fun schema => ?_,
    fun example_ => ?_⟩
  · constructor
    · rintro ⟨steps, depth, success⟩
      have deeper := (grows_schema types element).ok_mono success (Nat.le_refl _)
        (Nat.le_add_right depth bases.length)
      exact ⟨steps, depth, (schemas steps depth).symm.trans deeper⟩
    · rintro ⟨steps, depth, success⟩
      exact ⟨steps, depth + bases.length, (schemas steps depth).trans success⟩
  · constructor
    · rintro ⟨steps, depth, success⟩
      have deeper := (grows_example types element).ok_mono success (Nat.le_refl _)
        (Nat.le_add_right depth bases.length)
      exact ⟨steps, depth, (examples steps depth).symm.trans deeper⟩
    · rintro ⟨steps, depth, success⟩
      exact ⟨steps, depth + bases.length, (examples steps depth).trans success⟩

namespace NullableName

/-! A name is a text with a description, and every text may be null. -/

def text : Element := ⟨"string", .absent, [], [(flagsAttribute, .array [.string nullableFlag])]⟩

def name : Element := ⟨"Text", .absent, [("description", .string "A name")], []⟩

def table : SymbolTable := [("Text", text), ("Name", name)]

/-- An element that may be null by itself. -/
def element : Element := ⟨"Name", .absent, [], [(flagsAttribute, .array [.string nullableFlag])]⟩

theorem chain : BaseChain table element.name [name, text] :=
  .cons (by decide) rfl (.cons (by decide) rfl (.nil (.inl (by decide))))

theorem parsed : ∀ other ∈ [element, name, text], other.Parsed := by
  rintro other (_ | ⟨_, _ | ⟨_, _ | ⟨_, ⟨⟩⟩⟩⟩)
  · exact ⟨.object [("element", .string "Name"),
      ("attributes", .object [("typeAttributes", .array [.string "nullable"])])], by decide, rfl⟩
  · exact ⟨.object [("element", .string "Text"),
      ("meta", .object [("description", .string "A name")])], by decide, rfl⟩
  · exact ⟨.object [("element", .string "string"),
      ("attributes", .object [("typeAttributes", .array [.string "nullable"])])], by decide, rfl⟩

/-- It is described and widened once. -/
theorem flattened_renders_same_nullable :
    renderSchemaWithin expansionSteps table 3 element =
        renderSchemaWithin expansionSteps table 1 (element.over [name, text]) ∧
      renderSchemaWithin expansionSteps table 3 element =
        .ok [("type", .array [.string "string", .string "null"]),
          ("description", .string "A name")] := by
  obtain ⟨distinctElement, distinctBases⟩ := List.forall_mem_cons.mp
    fun other among => (parsed other among).annotationsDistinct
  obtain ⟨same, -, -⟩ := flattened_renders_same chain distinctElement distinctBases
  exact ⟨(same expansionSteps 1).1, rfl⟩

end NullableName

end Mson
