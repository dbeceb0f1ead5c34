import Mson.Proofs.Computation
import Mson.Proofs.Mapping
import Mson.Schema.Widening

/-!
# Widening any schema

What widening by null does to a schema with any keywords, also to one that is never rendered. `WidensTo`
says it once, by the keyword that decides: a type that is named or listed, else the choices, else whatever
constrains at all. `HasNull` says which schemas have their null already. Every result of widening is such
a schema (`WidensTo.hasNull`) and such schemas stay as they are (`widen_of_hasNull`), so widening again
changes nothing.
-/
namespace Mson

theorem Value.any_isNull_iff {values : List Value} :
    values.any Value.isNull = true ↔ Value.null ∈ values := by
  rw [List.any_eq_true]
  constructor
  · rintro ⟨value, member, isNull⟩
    cases value <;> simp [Value.isNull] at isNull
    exact member
  · exact fun member => ⟨.null, member, rfl⟩

namespace Schema

theorem any_isNamedNull_iff {types : List Value} :
    types.any isNamedNull = true ↔ .string nullType ∈ types := by
  rw [List.any_eq_true]
  constructor
  · rintro ⟨type, member, named⟩
    cases type with
    | string name => rwa [of_decide_eq_true named] at member
    | _ => cases named
  · exact fun member => ⟨.string nullType, member, rfl⟩

theorem isOnlyNull_iff {branch : Value} : isOnlyNull branch = true ↔ branch = .object onlyNull := by
  constructor
  · intro isNull
    unfold isOnlyNull at isNull
    split at isNull
    · rw [of_decide_eq_true isNull]
      rfl
    · cases isNull
  · rintro rfl
    rfl

theorem any_isOnlyNull_iff {branches : List Value} :
    branches.any isOnlyNull = true ↔ .object onlyNull ∈ branches := by
  simp only [List.any_eq_true, isOnlyNull_iff, exists_eq_right]

/-! ## The keyword that decides -/

/-- Whether the value of a keyword is a list, if the schema has the keyword. -/
def ListsUnder (schema : Schema) (keyword : String) : Prop :=
  ∀ value, Mapping.get? schema keyword = some value → ∃ items, value = .array items

/-- Whether a schema names no type and lists none. -/
structure Untyped (schema : Schema) : Prop where
  unnamed (name : String) : Mapping.get? schema "type" ≠ some (.string name)
  unlisted (types : List Value) : Mapping.get? schema "type" ≠ some (.array types)

/-- Whether a schema has null among its types, or else among its choices, or else as a branch, or
constrains nothing. -/
inductive HasNull (schema : Schema) : Prop
  | type (named : Mapping.get? schema "type" = some (.string nullType))
  | types {types : List Value} (listed : Mapping.get? schema "type" = some (.array types))
      (null : .string nullType ∈ types)
  | choices {value : Value} {items : List Value} (untyped : schema.Untyped)
      (listed : Mapping.get? schema "enum" = some value) (read : Schema.choices value = .ok items)
      (null : .null ∈ items)
  | free (untyped : schema.Untyped) (noChoices : Mapping.get? schema "enum" = none)
      (nothing : constraints schema = [])
  | branch {branches : List Value} (untyped : schema.Untyped)
      (noChoices : Mapping.get? schema "enum" = none)
      (listed : Mapping.get? schema "anyOf" = some (.array branches))
      (null : .object onlyNull ∈ branches)

/-- What a schema is widened to. -/
inductive WidensTo (schema : Schema) : Schema → Prop
  | same (nullable : schema.HasNull) : WidensTo schema schema
  | type {name : String} (named : Mapping.get? schema "type" = some (.string name))
      (other : name ≠ nullType) :
      WidensTo schema (Mapping.put schema "type" (.array [.string name, .string nullType]))
  | types {types : List Value} (listed : Mapping.get? schema "type" = some (.array types))
      (lacking : .string nullType ∉ types) :
      WidensTo schema (Mapping.put schema "type" (.array (types ++ [.string nullType])))
  | choices {value : Value} {items : List Value} (untyped : schema.Untyped)
      (listed : Mapping.get? schema "enum" = some value) (read : Schema.choices value = .ok items)
      (lacking : .null ∉ items) :
      WidensTo schema (Mapping.put schema "enum" (.array (items ++ [.null])))
  | wrapped (untyped : schema.Untyped) (noChoices : Mapping.get? schema "enum" = none)
      (constrains : constraints schema ≠ [])
      (lacking : ∀ branches, Mapping.get? schema "anyOf" = some (.array branches) →
        .object onlyNull ∉ branches) :
      WidensTo schema (("anyOf", .array [.object (constraints schema), .object onlyNull]) ::
        annotations schema)

variable {schema widened : Schema}

theorem Untyped.of_none (absent : Mapping.get? schema "type" = none) : schema.Untyped := by
  constructor <;> simp [absent]

theorem widen_of_untyped (untyped : schema.Untyped) :
    widen schema =
      match Mapping.get? schema "enum" with
      | some value => do
          let items ← choices value
          return if items.any Value.isNull then schema
            else Mapping.put schema "enum" (.array (items ++ [.null]))
      | none =>
          if (constraints schema).isEmpty then .ok schema
          else do
            if ← hasNullBranch (Mapping.get? schema "anyOf") then return schema
            return ("anyOf", .array [.object (constraints schema), .object onlyNull]) ::
              annotations schema := by
  unfold widen
  split
  · rename_i name named
    exact absurd named (untyped.unnamed name)
  · rename_i types listed
    exact absurd listed (untyped.unlisted types)
  · rfl

/-- A schema that has its null stays as it is. -/
theorem widen_of_hasNull (nullable : schema.HasNull) : widen schema = .ok schema := by
  cases nullable with
  | type named => simp only [widen, named, if_pos]
  | types listed null => simp only [widen, listed, any_isNamedNull_iff.mpr null, if_pos]
  | choices untyped listed read null =>
    simp only [widen_of_untyped untyped, listed, read, bind, Except.bind,
      Value.any_isNull_iff.mpr null, if_pos]
    rfl
  | free untyped noChoices nothing =>
    simp only [widen_of_untyped untyped, noChoices, nothing, List.isEmpty_nil, if_pos]
  | branch untyped noChoices listed null =>
    simp only [widen_of_untyped untyped, noChoices, listed, hasNullBranch,
      any_isOnlyNull_iff.mpr null, bind, Except.bind, if_pos]
    split <;> rfl

theorem widensTo_of_widen (success : widen schema = .ok widened) : schema.WidensTo widened := by
  by_cases named : ∃ name, Mapping.get? schema "type" = some (.string name)
  · obtain ⟨name, named⟩ := named
    simp only [widen, named, Except.ok.injEq] at success
    subst success
    split
    · rename_i isNull
      exact .same (.type (isNull ▸ named))
    · exact .type named ‹_›
  by_cases listed : ∃ types, Mapping.get? schema "type" = some (.array types)
  · obtain ⟨types, listed⟩ := listed
    simp only [widen, listed, Except.ok.injEq] at success
    subst success
    split
    · rename_i null
      exact .same (.types listed (any_isNamedNull_iff.mp null))
    · rename_i lacking
      exact .types listed fun null => lacking (any_isNamedNull_iff.mpr null)
  have untyped : schema.Untyped :=
    ⟨fun name isNamed => named ⟨name, isNamed⟩, fun types isListed => listed ⟨types, isListed⟩⟩
  rw [widen_of_untyped untyped] at success
  split at success
  · rename_i value listed
    obtain ⟨items, read, rfl⟩ := map_eq_ok_iff.mp success
    split
    · rename_i null
      exact .same (.choices untyped listed read (Value.any_isNull_iff.mp null))
    · rename_i lacking
      exact .choices untyped listed read fun null => lacking (Value.any_isNull_iff.mpr null)
  · rename_i noChoices
    split at success
    · rename_i nothing
      cases success
      exact .same (.free untyped noChoices (List.isEmpty_iff.mp nothing))
    · rename_i constrains
      obtain ⟨null, searched, success⟩ := bind_eq_ok_iff.mp success
      cases null with
      | false =>
        cases success
        refine .wrapped untyped noChoices (fun nothing => constrains (List.isEmpty_iff.mpr nothing)) ?_
        intro branches listed null
        rw [listed, hasNullBranch, any_isOnlyNull_iff.mpr null] at searched
        cases searched
      | true =>
        cases success
        unfold hasNullBranch at searched
        split at searched
        · cases searched
        · rename_i branches listed
          have null : branches.any isOnlyNull = true := Except.ok.inj searched
          exact .same (.branch untyped noChoices listed (any_isOnlyNull_iff.mp null))
        · cases searched

/-- Widening fails only where choices or branches are no list. -/
theorem exists_widen (choices : schema.ListsUnder "enum") (branches : schema.ListsUnder "anyOf") :
    ∃ widened, widen schema = .ok widened := by
  unfold widen
  split
  · exact ⟨_, rfl⟩
  · exact ⟨_, rfl⟩
  · split
    · rename_i value listed
      obtain ⟨items, rfl⟩ := choices value listed
      exact ⟨_, rfl⟩
    · split
      · exact ⟨_, rfl⟩
      · have searched : ∃ null, hasNullBranch (Mapping.get? schema "anyOf") = .ok null := by
          cases found : Mapping.get? schema "anyOf" with
          | none => exact ⟨_, rfl⟩
          | some value =>
            obtain ⟨items, rfl⟩ := branches value found
            exact ⟨_, rfl⟩
        obtain ⟨null, searched⟩ := searched
        rw [searched]
        cases null <;> exact ⟨_, rfl⟩

/-! ## What widening comes to -/

theorem get?_constraints {keyword : String} (constrains : keyword ≠ descriptionKeyword) :
    Mapping.get? (constraints schema) keyword = Mapping.get? schema keyword := by
  have kept := Mapping.get?_filter_name schema (fun name => name ≠ descriptionKeyword) keyword
  rwa [if_pos (decide_eq_true constrains)] at kept

theorem get?_annotations (keyword : String) :
    Mapping.get? (annotations schema) keyword =
      if keyword = descriptionKeyword then Mapping.get? schema keyword else none := by
  have kept := Mapping.get?_filter_name schema (fun name => name = descriptionKeyword) keyword
  simp only [decide_eq_true_eq] at kept
  exact kept

theorem Untyped.put_enum (untyped : schema.Untyped) (value : Value) :
    Untyped (Mapping.put schema "enum" value) := by
  have kept : Mapping.get? (Mapping.put schema "enum" value) "type" = Mapping.get? schema "type" :=
    Mapping.get?_put_of_ne schema value (by decide)
  constructor
  · rw [kept]
    exact untyped.unnamed
  · rw [kept]
    exact untyped.unlisted

/-- Whatever is widened has its null. -/
theorem WidensTo.hasNull (widens : schema.WidensTo widened) : widened.HasNull := by
  cases widens with
  | same nullable => exact nullable
  | type named other => exact .types (Mapping.get?_put_self ..) (by simp)
  | types listed lacking => exact .types (Mapping.get?_put_self ..) (by simp)
  | choices untyped listed read lacking =>
    exact .choices (untyped.put_enum _) (Mapping.get?_put_self ..) rfl (by simp)
  | wrapped untyped noChoices constraining lacking =>
    -- Beside the branches nothing but the description is left, so no other keyword decides.
    have silent : ∀ keyword, keyword ≠ "anyOf" → keyword ≠ descriptionKeyword →
        Mapping.get? (("anyOf", .array [.object (constraints schema), .object onlyNull]) ::
          annotations schema) keyword = none := by
      intro keyword noBranches noDescription
      rw [Mapping.get?_cons, if_neg (Ne.symm noBranches), get?_annotations, if_neg noDescription]
    exact .branch (.of_none (silent _ (by decide) (by decide))) (silent _ (by decide) (by decide))
      (Mapping.get?_cons_self ..) (by simp)

theorem widen_widen (success : widen schema = .ok widened) : widen widened = .ok widened :=
  widen_of_hasNull (widensTo_of_widen success).hasNull

/-- Where an entry of a schema is found when the schema has been widened. -/
inductive Kept (widened : Schema) (keyword : String) : Value → Prop
  | unchanged {value : Value} (found : Mapping.get? widened keyword = some value) :
      Kept widened keyword value
  | secondType {name : String} (isType : keyword = "type")
      (found : Mapping.get? widened keyword = some (.array [.string name, .string nullType])) :
      Kept widened keyword (.string name)
  | lastType {types : List Value} (isType : keyword = "type")
      (found : Mapping.get? widened keyword = some (.array (types ++ [.string nullType]))) :
      Kept widened keyword (.array types)
  | lastChoice {items : List Value} (isEnum : keyword = "enum")
      (found : Mapping.get? widened keyword = some (.array (items ++ [.null]))) :
      Kept widened keyword (.array items)
  | firstBranch {value : Value} {first : Schema} {others : List Value}
      (listed : Mapping.get? widened "anyOf" = some (.array (.object first :: others)))
      (found : Mapping.get? first keyword = some value) : Kept widened keyword value

theorem WidensTo.get?_description (widens : schema.WidensTo widened) :
    Mapping.get? widened descriptionKeyword = Mapping.get? schema descriptionKeyword := by
  cases widens with
  | same nullable => rfl
  | type named other => exact Mapping.get?_put_of_ne _ _ (by decide)
  | types listed lacking => exact Mapping.get?_put_of_ne _ _ (by decide)
  | choices untyped listed read lacking => exact Mapping.get?_put_of_ne _ _ (by decide)
  | wrapped untyped noChoices constraining lacking =>
    rw [Mapping.get?_cons, if_neg (by decide), get?_annotations, if_pos rfl]

/-- No entry is lost, provided that the choices are a list. -/
theorem WidensTo.kept (widens : schema.WidensTo widened) (choices : schema.ListsUnder "enum")
    {keyword : String} {value : Value} (constrains : keyword ≠ descriptionKeyword)
    (found : Mapping.get? schema keyword = some value) : Kept widened keyword value := by
  have elsewhere : ∀ {other : String} {written : Value}, keyword ≠ other →
      Kept (Mapping.put schema other written) keyword value := fun different =>
    .unchanged ((Mapping.get?_put_of_ne _ _ (Ne.symm different)).trans found)
  cases widens with
  | same nullable => exact .unchanged found
  | type named other =>
    by_cases isType : keyword = "type"
    · subst isType
      cases named.symm.trans found
      exact .secondType rfl (Mapping.get?_put_self ..)
    · exact elsewhere isType
  | types listed lacking =>
    by_cases isType : keyword = "type"
    · subst isType
      cases listed.symm.trans found
      exact .lastType rfl (Mapping.get?_put_self ..)
    · exact elsewhere isType
  | choices untyped listed read lacking =>
    by_cases isEnum : keyword = "enum"
    · subst isEnum
      cases listed.symm.trans found
      obtain ⟨items, rfl⟩ := choices _ found
      cases read
      exact .lastChoice rfl (Mapping.get?_put_self ..)
    · exact elsewhere isEnum
  | wrapped untyped noChoices constraining lacking =>
    exact .firstBranch (Mapping.get?_cons_self ..) ((get?_constraints constrains).trans found)

/-- Every schema whose choices and branches are lists can be widened. It stays as it is exactly if it has
its null; the widened schema always has it, so that widening again changes nothing. The description
stays, and every other entry is found unchanged, at the top or in the first branch, but for a null that
the type or the choices gain. -/
theorem widening_settles (choices : schema.ListsUnder "enum") (branches : schema.ListsUnder "anyOf") :
    ∃ widened, widen schema = .ok widened ∧ (widened = schema ↔ schema.HasNull) ∧
      widened.HasNull ∧ widen widened = .ok widened ∧
      Mapping.get? widened descriptionKeyword = Mapping.get? schema descriptionKeyword ∧
      ∀ keyword value, keyword ≠ descriptionKeyword → Mapping.get? schema keyword = some value →
        Kept widened keyword value := by
  obtain ⟨widened, success⟩ := exists_widen choices branches
  have widens := widensTo_of_widen success
  have stays : widened = schema ↔ schema.HasNull := by
    constructor
    · rintro rfl
      exact widens.hasNull
    · intro nullable
      rw [widen_of_hasNull nullable] at success
      exact (Except.ok.inj success).symm
  exact ⟨widened, success, stays, widens.hasNull, widen_widen success, widens.get?_description,
    fun keyword value constrains found => widens.kept choices constrains found⟩

namespace UntypedBranches

/-! A type that is no name leaves it to the branches to decide, and these lack null. -/

def constrained : Schema :=
  [("type", .int 1), ("anyOf", .array [.object [("type", .string "string")]])]

def described : Schema := constrained ++ [(descriptionKeyword, .string "a text")]

theorem widening_settles_branches :
    described.ListsUnder "enum" ∧ described.ListsUnder "anyOf" ∧
      ∃ widened, widen described = .ok widened ∧ widen widened = .ok widened ∧
        widened = [("anyOf", .array [.object constrained, .object onlyNull]),
          (descriptionKeyword, .string "a text")] ∧
        Kept widened "type" (.int 1) := by
  have choices : described.ListsUnder "enum" := fun value found => by cases found
  have branches : described.ListsUnder "anyOf" := fun value found => by
    cases found
    exact ⟨_, rfl⟩
  obtain ⟨widened, success, -, -, again, -, kept⟩ := widening_settles choices branches
  have shown : widened = [("anyOf", .array [.object constrained, .object onlyNull]),
      (descriptionKeyword, .string "a text")] := (Except.ok.inj success).symm
  exact ⟨choices, branches, widened, success, again, shown, kept "type" _ (by decide) rfl⟩

end UntypedBranches

end Schema

end Mson
