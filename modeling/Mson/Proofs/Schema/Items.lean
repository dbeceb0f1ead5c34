import Mson.Proofs.Rendering.Result
import Mson.Proofs.Rendering.Success
import Mson.Proofs.Schema.Acceptance

/-!
# What the items of an array accept

The schema for the items of an array is the first of the schemas of its children if all are equal to
that one, and any of them if not. Equality is structural, so the children that are left out may be
spelled otherwise, with their keywords in another order or their numbers written as doubles. They
accept the same instances all the same (`accepts_iff_of_equal`), so in both cases the items accept what
some child accepts (`items_accept_union`).
-/
namespace Mson

namespace Schema

/-- Any of the given schemas. -/
def anyOf (alternatives : List Schema) : Schema :=
  [("anyOf", .array (alternatives.map Value.object))]

theorem accepts_anyOf_iff {alternatives : List Schema} {json : Json} :
    (anyOf alternatives).Accepts json ↔ ∃ schema ∈ alternatives, schema.Accepts json := by
  have accepts : (anyOf alternatives).Accepts json ↔
      Value.Holds "anyOf" (.array (alternatives.map Value.object)) json := by
    simp [accepts_iff, anyOf, Mapping.get?_cons]
  rw [accepts, Value.holds_anyOf]
  constructor
  · rintro ⟨value, among, accepted⟩
    obtain ⟨schema, isAlternative, rfl⟩ := List.mem_map.mp among
    exact ⟨schema, isAlternative, accepted⟩
  · rintro ⟨schema, isAlternative, accepted⟩
    exact ⟨.object schema, List.mem_map_of_mem isAlternative, accepted⟩

/-- Of schemas that all equal the first, one accepts an instance exactly if the first does. -/
theorem accepts_first_iff {first : Schema} {rest : List Schema}
    (equal : Value.allEqual ((first :: rest).map Value.object) = true) {json : Json} :
    first.Accepts json ↔ ∃ schema ∈ first :: rest, schema.Accepts json := by
  constructor
  · exact fun accepted => ⟨first, List.mem_cons_self, accepted⟩
  · rintro ⟨schema, among, accepted⟩
    rcases List.mem_cons.mp among with rfl | later
    · exact accepted
    · simp only [Value.allEqual, List.map_cons, List.all_eq_true] at equal
      have same := equal _ (List.mem_map_of_mem later)
      exact (accepts_iff_of_equal same json).mpr accepted

/-- How the schema for the items comes from the schemas of the children. -/
inductive ItemsOf : List Schema → Schema → Prop
  | collapsed {first : Schema} {rest : List Schema}
      (equal : Value.allEqual ((first :: rest).map Value.object) = true) :
      ItemsOf (first :: rest) first
  | listed {schemas : List Schema} (different : Value.allEqual (schemas.map Value.object) = false) :
      ItemsOf schemas (anyOf schemas)

theorem ItemsOf.accepts_iff {schemas : List Schema} {items : Schema} (ofItems : ItemsOf schemas items)
    {json : Json} : items.Accepts json ↔ ∃ schema ∈ schemas, schema.Accepts json := by
  cases ofItems with
  | collapsed equal => exact accepts_first_iff equal
  | listed _ => exact accepts_anyOf_iff

theorem exists_itemsOf {schemas : List Schema} (some : schemas ≠ []) :
    ∃ items, itemSchema schemas = [("items", .object items)] ∧ ItemsOf schemas items := by
  unfold itemSchema
  split
  · exact absurd rfl some
  · rename_i schema
    exact ⟨schema, rfl, .collapsed rfl⟩
  · rename_i first rest _
    simp only
    split
    · rename_i equal
      exact ⟨first, rfl, .collapsed equal⟩
    · rename_i different
      exact ⟨anyOf (first :: rest), rfl, .listed (Bool.eq_false_iff.mpr different)⟩

end Schema

variable {types : SymbolTable}

/-- The items of an array with children accept what the schema of one of its children accepts, whether
all have one schema or each its own. -/
theorem items_accept_union {element : Element} {steps depth : Nat} (parsedTypes : types.Parsed)
    (parsed : element.Parsed) (kind : element.kind = some .array) (filled : element.children ≠ [])
    (ends : Settled (renderSchemaWithin steps types depth element)) :
    ∃ (schema items : Schema) (schemas : List Schema),
      renderSchemaWithin steps types depth element = .ok schema ∧
      Mapping.get? schema "items" = some (.object items) ∧
      List.Forall₂ (ShowsSchema types) element.children schemas ∧ Schema.ItemsOf schemas items ∧
      ∀ json, items.Accepts json ↔ ∃ own ∈ schemas, own.Accepts json := by
  obtain ⟨schema, success⟩ := exists_schema_of_settled parsedTypes parsed ends
  cases depth with
  | zero => cases success
  | succ depth =>
    obtain ⟨body, contributed, form, finished⟩ := exists_body_of_success success
    simp only [Schema.ofKind, kind] at contributed
    obtain ⟨schemas, each, rfl⟩ := map_eq_ok_iff.mp contributed
    have pairs := mapM_eq_ok_iff_forall₂.mp each
    have present : schemas ≠ [] := by
      rintro rfl
      exact filled (List.forall₂_nil_right_iff.mp pairs)
    obtain ⟨items, made, ofItems⟩ := Schema.exists_itemsOf present
    refine ⟨schema, items, schemas, success, ?_, pairs.imp fun child own shown => ⟨steps, depth, shown⟩,
      ofItems, fun json => ofItems.accepts_iff⟩
    rw [form.get?_finished_of_ne finished (by decide) (by decide) (by decide), made]
    rfl

namespace SwappedMembers

/-! Two objects with the same members, in two orders. -/

def member (key : String) : Element :=
  ⟨"member", .member ⟨"string", .literal (.string key), [], []⟩
    (some ⟨"string", .absent, [], []⟩), [], []⟩

def item (keys : List String) : Element := ⟨"object", .children (keys.map member), [], []⟩

def element : Element := ⟨"array", .children [item ["a", "b"], item ["b", "a"]], [], []⟩

def memberNode (key : String) : Json :=
  .object [("element", .string "member"), ("content", .object
    [("key", .object [("element", .string "string"), ("content", .string key)]),
      ("value", .object [("element", .string "string")])])]

def itemNode (keys : List String) : Json :=
  .object [("element", .string "object"), ("content", .array (keys.map memberNode))]

def node : Json :=
  .object [("element", .string "array"),
    ("content", .array [itemNode ["a", "b"], itemNode ["b", "a"]])]

def text : Value := .object [("type", .string "string")]

def itemSchema (keys : List String) : Schema :=
  [("type", .string "object"), ("properties", .object (keys.map fun key => (key, text)))]

/-- The items have the schema of the first, which accepts what that of the second accepts. -/
theorem items_accept_union_swapped :
    element.Parsed ∧ renderSchema [] element =
        .ok [("type", .string "array"), ("items", .object (itemSchema ["a", "b"]))] ∧
      ∃ schemas : List Schema, List.Forall₂ (ShowsSchema []) element.children schemas ∧
        Schema.ItemsOf schemas (itemSchema ["a", "b"]) ∧
        ∀ json, (itemSchema ["a", "b"]).Accepts json ↔ ∃ own ∈ schemas, own.Accepts json := by
  have parsed : element.Parsed := ⟨node, by decide, rfl⟩
  have noTypes : SymbolTable.Parsed [] := fun _ member => absurd member List.not_mem_nil
  have rendered : renderSchemaWithin expansionSteps [] renderDepth element =
      .ok [("type", .string "array"), ("items", .object (itemSchema ["a", "b"]))] := rfl
  have ends : Settled (renderSchemaWithin expansionSteps [] renderDepth element) := settled_ok _
  obtain ⟨schema, items, schemas, success, found, shown, ofItems, union⟩ :=
    items_accept_union noTypes parsed (by decide) (List.cons_ne_nil _ _) ends
  cases rendered.symm.trans success
  cases found
  exact ⟨parsed, rendered, schemas, shown, ofItems, union⟩

end SwappedMembers

end Mson
