import Mathlib.Data.List.Nodup
import Mson.Api.Payload

/-!
# Labels

A label names the action of a payload, its direction, and its number in its example. The number
starts again in every example, which the label does not name: labels are distinct exactly if no two
examples of one label list payloads of one direction (`nodup_labels_iff`). Actions that differ in a
name have different labels if no name begins in the middle of a separator
(`ActionPlace.label_ne_of_names_ne`), so what is left is that an action lists each direction in one
example (`labels_distinct_iff`).
-/
namespace Mson

open Payload

/-! ## Separators -/

/-- Whether a text can be told from what stands before it: it holds no separator, and none ends in
it that begins before. -/
structure EndsLabel (text : String) : Prop where
  noSeparator : ¬ labelSeparator.toList <:+: text.toList
  noRest : ¬ ['/', ' '] <+: text.toList

/-- A text that comes behind another one in the same place begins with the rest of a separator, or it
holds a whole one. -/
private theorem eq_nil_of_separated {between last last' : List Char}
    (noSeparator : ¬ labelSeparator.toList <:+: last) (noRest : ¬ ['/', ' '] <+: last)
    (same : labelSeparator.toList ++ last = between ++ (labelSeparator.toList ++ last')) :
    between = [] := by
  have separator : labelSeparator.toList = [' ', '/', ' '] := rfl
  rw [separator] at same noSeparator
  match between with
  | [] => rfl
  | [_] => simp at same
  | [_, _] =>
    simp only [List.cons_append, List.nil_append, List.cons.injEq] at same
    exact absurd ⟨last', same.2.2.2.symm⟩ noRest
  | _ :: _ :: _ :: more =>
    simp only [List.cons_append, List.nil_append, List.cons.injEq] at same
    exact absurd ⟨more, last', by simpa using same.2.2.2.symm⟩ noSeparator

theorem append_separator_inj {first first' last last' : String} (ends : EndsLabel last)
    (ends' : EndsLabel last')
    (same : first ++ labelSeparator ++ last = first' ++ labelSeparator ++ last') :
    first = first' ∧ last = last' := by
  have chars : first.toList ++ (labelSeparator.toList ++ last.toList) =
      first'.toList ++ (labelSeparator.toList ++ last'.toList) := by
    simpa using congrArg String.toList same
  have firsts : first.toList = first'.toList := by
    rcases List.append_eq_append_iff.mp chars with ⟨between, longer, rest⟩ | ⟨between, longer, rest⟩
    · rw [eq_nil_of_separated ends.noSeparator ends.noRest rest, List.append_nil] at longer
      exact longer.symm
    · rw [eq_nil_of_separated ends'.noSeparator ends'.noRest rest, List.append_nil] at longer
      exact longer
  rw [firsts, List.append_cancel_left_eq, List.append_cancel_left_eq] at chars
  exact ⟨String.toList_inj.mp firsts, String.toList_inj.mp chars⟩

/-! ## Numbered labels -/

/-- The label of the payload with a number. -/
def numbered (label : String) (direction : Direction) (number : Nat) : String :=
  label ++ labelSeparator ++ direction.name ++ s!" {number}"

/-- What stands in a label behind the name of the action. -/
def directionAndNumber (direction : Direction) (number : Nat) : String :=
  direction.name ++ " " ++ toString number

theorem numbered_eq (label : String) (direction : Direction) (number : Nat) :
    numbered label direction number =
      label ++ labelSeparator ++ directionAndNumber direction number := by
  simp only [numbered, directionAndNumber, String.append_assoc]
  rfl

theorem endsLabel_directionAndNumber (direction : Direction) (number : Nat) :
    EndsLabel (directionAndNumber direction number) := by
  have digits : '/' ∉ (toString number).toList := by
    rw [Nat.toString_eq_ofList_toDigits, String.toList_ofList]
    intro isDigit
    exact absurd (Nat.isDigit_of_mem_toDigits (by decide) (by decide) isDigit) (by decide)
  have noSlash : '/' ∉ (directionAndNumber direction number).toList := by
    simp only [directionAndNumber, String.toList_append, List.mem_append, not_or]
    refine ⟨⟨?_, by decide⟩, digits⟩
    cases direction <;> decide
  exact ⟨fun within => noSlash (within.subset (by decide)),
    fun first => noSlash (first.subset (by decide))⟩

theorem directionAndNumber_inj {direction direction' : Direction} {number number' : Nat}
    (same : directionAndNumber direction number = directionAndNumber direction' number') :
    direction = direction' ∧ number = number' := by
  have chars := congrArg String.toList same
  simp only [directionAndNumber, String.toList_append] at chars
  have directions : direction = direction' := by
    cases direction <;> cases direction' <;> simp [Direction.name] at chars <;> rfl
  subst directions
  rw [List.append_cancel_left_eq, Nat.toString_eq_ofList_toDigits, Nat.toString_eq_ofList_toDigits,
    String.toList_ofList, String.toList_ofList] at chars
  refine ⟨rfl, ?_⟩
  rw [← Nat.ofDigitChars_ten_toDigits (n := number), chars, Nat.ofDigitChars_ten_toDigits]

theorem numbered_inj {label label' : String} {direction direction' : Direction}
    {number number' : Nat} :
    numbered label direction number = numbered label' direction' number' ↔
      label = label' ∧ direction = direction' ∧ number = number' := by
  constructor
  · intro same
    rw [numbered_eq, numbered_eq] at same
    obtain ⟨labels, rest⟩ := append_separator_inj (endsLabel_directionAndNumber direction number)
      (endsLabel_directionAndNumber direction' number') same
    exact ⟨labels, directionAndNumber_inj rest⟩
  · rintro ⟨rfl, rfl, rfl⟩
    rfl

/-! ## Labels of a description -/

/-- The payloads that an example lists under a direction. -/
def Direction.listed (direction : Direction) (example_ : Mapping Json) : List (Mapping Json) :=
  objectsIn (Mapping.get? example_ direction.field)

/-- An action of a description, with the group and the resource it stands under. -/
structure ActionPlace where
  group : Mapping Json
  resource : Mapping Json
  action : Mapping Json

/-- The actions of a description, each in its place. -/
def Description.actions (description : Description) : List ActionPlace :=
  (objectsIn (Mapping.get? description "resourceGroups")).flatMap fun group =>
    (objectsIn (Mapping.get? group "resources")).flatMap fun resource =>
      (objectsIn (Mapping.get? resource "actions")).map fun action => ⟨group, resource, action⟩

namespace ActionPlace

/-- What an action is called after: its group, its resource and its method. -/
def parts (place : ActionPlace) : List (Option Json) :=
  [Mapping.get? place.group "name", resourceName place.resource, Mapping.get? place.action "method"]

def label (place : ActionPlace) : String := labelOf place.parts

def examples (place : ActionPlace) : List (Mapping Json) :=
  objectsIn (Mapping.get? place.action "examples")

/-- The labels of the payloads of one direction in an example. -/
def labelsIn (place : ActionPlace) (direction : Direction) (example_ : Mapping Json) : List String :=
  (List.range' 1 (direction.listed example_).length).map (numbered place.label direction)

/-- No two examples of the action list payloads of one direction. -/
def NumbersOnce (place : ActionPlace) : Prop :=
  place.examples.Pairwise fun first second =>
    ∀ direction : Direction, direction.listed first = [] ∨ direction.listed second = []

/-- The actions have different labels, or no direction under which both list payloads. -/
def Apart (first second : ActionPlace) : Prop :=
  first.label = second.label → ∀ direction : Direction,
    ∀ example_ ∈ first.examples, ∀ other ∈ second.examples,
      direction.listed example_ = [] ∨ direction.listed other = []

end ActionPlace

theorem map_label_ofExample (place : ActionPlace) (example_ : Mapping Json) (direction : Direction) :
    (ofExample place.label example_ direction).map Payload.label =
      place.labelsIn direction example_ := by
  rw [ofExample, ActionPlace.labelsIn, List.map_map, ← List.zipIdx_map_snd, List.map_map]
  rfl

/-- The labels of the payloads in an example. -/
def ActionPlace.labelsOf (place : ActionPlace) (example_ : Mapping Json) : List String :=
  place.labelsIn .request example_ ++ place.labelsIn .response example_

theorem map_label_ofAction (place : ActionPlace) :
    (ofAction place.group place.resource place.action).map Payload.label =
      place.examples.flatMap place.labelsOf := by
  unfold ofAction
  rw [List.map_flatMap]
  refine List.flatMap_congr fun example_ _ => ?_
  rw [List.map_append, ActionPlace.labelsOf, ← map_label_ofExample, ← map_label_ofExample]
  rfl

theorem map_label_discover (description : Description) :
    (discover description).map Payload.label =
      description.actions.flatMap fun place => place.examples.flatMap place.labelsOf := by
  simp only [discover, Description.actions, List.map_flatMap, List.flatMap_assoc, List.flatMap_map,
    ← map_label_ofAction]

namespace ActionPlace

variable {place first second : ActionPlace} {example_ later : Mapping Json}

theorem disjoint_labelsIn_iff {direction other : Direction} :
    (first.labelsIn direction example_).Disjoint (second.labelsIn other later) ↔
      (first.label = second.label → direction = other →
        direction.listed example_ = [] ∨ other.listed later = []) := by
  constructor
  · rintro disjoint labels rfl
    by_contra both
    obtain ⟨some_, also⟩ := not_or.mp both
    -- both examples have a first payload, and it has the same label
    have one : ∀ items : List (Mapping Json), items ≠ [] → 1 ∈ List.range' 1 items.length := by
      intro items nonempty
      simpa [List.mem_range'_1] using List.length_pos_iff.mpr nonempty
    refine disjoint (List.mem_map_of_mem (one _ some_)) ?_
    rw [labels]
    exact List.mem_map_of_mem (one _ also)
  · intro apart text mine theirs
    obtain ⟨number, within, rfl⟩ := List.mem_map.mp mine
    obtain ⟨number', within', same⟩ := List.mem_map.mp theirs
    obtain ⟨labels, directions, -⟩ := numbered_inj.mp same
    rcases apart labels.symm directions.symm with none | none
    · simp [none] at within
    · simp [none] at within'

theorem disjoint_labelsOf_iff :
    (first.labelsOf example_).Disjoint (second.labelsOf later) ↔
      (first.label = second.label → ∀ direction : Direction,
        direction.listed example_ = [] ∨ direction.listed later = []) := by
  rw [labelsOf, labelsOf, List.disjoint_append_left, List.disjoint_append_right,
    List.disjoint_append_right]
  simp only [disjoint_labelsIn_iff]
  constructor
  · rintro ⟨⟨requests, -⟩, -, responses⟩ labels direction
    cases direction with
    | request => exact requests labels trivial
    | response => exact responses labels trivial
  · intro apart
    exact ⟨⟨fun labels _ => apart labels .request, nofun⟩, nofun, fun labels _ => apart labels .response⟩

/-- One example never gives a label twice. -/
theorem nodup_labelsOf (place : ActionPlace) (example_ : Mapping Json) :
    (place.labelsOf example_).Nodup := by
  have each : ∀ direction, (place.labelsIn direction example_).Nodup := fun direction =>
    (List.nodup_range' ..).map fun _ _ same => (numbered_inj.mp same).2.2
  exact (each .request).append (each .response) (disjoint_labelsIn_iff.mpr nofun)

theorem nodup_flatMap_labelsOf_iff :
    (place.examples.flatMap place.labelsOf).Nodup ↔ place.NumbersOnce := by
  rw [List.nodup_flatMap, NumbersOnce, and_iff_right fun example_ _ => place.nodup_labelsOf example_]
  refine List.Pairwise.iff fun example_ later => ?_
  rw [Function.onFun_apply, disjoint_labelsOf_iff]
  exact ⟨fun apart => apart rfl, fun apart _ => apart⟩

theorem disjoint_flatMap_labelsOf_iff :
    (first.examples.flatMap first.labelsOf).Disjoint (second.examples.flatMap second.labelsOf) ↔
      Apart first second := by
  constructor
  · intro disjoint labels direction example_ among other amongToo
    refine disjoint_labelsOf_iff.mp (fun text mine theirs => ?_) labels direction
    exact disjoint (List.mem_flatMap.mpr ⟨example_, among, mine⟩)
      (List.mem_flatMap.mpr ⟨other, amongToo, theirs⟩)
  · intro apart text mine theirs
    obtain ⟨example_, among, mine⟩ := List.mem_flatMap.mp mine
    obtain ⟨other, amongToo, theirs⟩ := List.mem_flatMap.mp theirs
    refine disjoint_labelsOf_iff.mpr (fun labels direction => ?_) mine theirs
    exact apart labels direction example_ among other amongToo

end ActionPlace

/-- Labels are distinct exactly if no action lists a direction in two examples, and no two actions of
one label list the same direction. -/
theorem nodup_labels_iff {description : Description} :
    ((discover description).map Payload.label).Nodup ↔
      (∀ place ∈ description.actions, place.NumbersOnce) ∧
        description.actions.Pairwise ActionPlace.Apart := by
  rw [map_label_discover, List.nodup_flatMap]
  refine and_congr (forall₂_congr fun _ _ => ActionPlace.nodup_flatMap_labelsOf_iff)
    (List.Pairwise.iff fun first second => ?_)
  rw [Function.onFun_apply, ActionPlace.disjoint_flatMap_labelsOf_iff]

/-! ## Names of actions -/

namespace ActionPlace

variable {place : ActionPlace} {group resource method : String}

/-- The parts that are texts, without blanks around them. -/
def names (place : ActionPlace) : List (Option String) :=
  place.parts.map fun part => (nonBlankText? part).map Text.trim

/-- Whether the group, the resource and the method have these names, which hold no separator. -/
structure Named (place : ActionPlace) (group resource method : String) : Prop where
  names : place.names = [some group, some resource, some method]
  noSeparator : ∀ name ∈ [group, resource, method], ¬ labelSeparator.toList <:+: name.toList

theorem Named.label_eq (named : place.Named group resource method) :
    place.label = group ++ labelSeparator ++ resource ++ labelSeparator ++ method := by
  have texts : place.names.filterMap id = [group, resource, method] := by
    rw [named.names]
    rfl
  rw [ActionPlace.names, List.filterMap_map, Function.id_comp] at texts
  rw [label, labelOf, texts]
  simp only [List.isEmpty_cons, Bool.false_eq_true, if_false, String.intercalate_cons_cons,
    String.intercalate_singleton, String.append_assoc]

/-- Named actions with different names have different labels, unless a name completes a separator that
begins before it. -/
theorem label_ne_of_names_ne {other : ActionPlace} {group' resource' method' : String}
    (named : place.Named group resource method) (named' : other.Named group' resource' method')
    (begins : ∀ name ∈ [resource, method, resource', method'], ¬ ['/', ' '] <+: name.toList)
    (different : place.names ≠ other.names) : place.label ≠ other.label := by
  intro same
  rw [named.label_eq, named'.label_eq] at same
  have ends : ∀ name ∈ [resource, method], EndsLabel name := fun name among =>
    ⟨named.noSeparator name (List.mem_cons_of_mem _ among), begins name (by grind)⟩
  have ends' : ∀ name ∈ [resource', method'], EndsLabel name := fun name among =>
    ⟨named'.noSeparator name (List.mem_cons_of_mem _ among), begins name (by grind)⟩
  obtain ⟨before, rfl⟩ := append_separator_inj (ends method (by simp)) (ends' method' (by simp)) same
  obtain ⟨rfl, rfl⟩ := append_separator_inj (ends resource (by simp)) (ends' resource' (by simp)) before
  exact different (named.names.trans named'.names.symm)

end ActionPlace

/-- Where every action is named, and no two have the same names, labels are distinct exactly if no
action lists a direction in two examples and actions whose names run together have no direction in
common. Names run together only where one begins with the rest of a separator. -/
theorem labels_distinct_iff {description : Description}
    (named : ∀ place ∈ description.actions, ∃ group resource method,
      place.Named group resource method)
    (distinct : (description.actions.map ActionPlace.names).Nodup) :
    (((discover description).map Payload.label).Nodup ↔
      (∀ place ∈ description.actions, place.NumbersOnce) ∧
        description.actions.Pairwise ActionPlace.Apart) ∧
    ((∀ place ∈ description.actions, ∀ name, some name ∈ place.names →
        ¬ ['/', ' '] <+: name.toList) →
      (((discover description).map Payload.label).Nodup ↔
        ∀ place ∈ description.actions, place.NumbersOnce)) := by
  refine ⟨nodup_labels_iff, fun begins => ?_⟩
  rw [nodup_labels_iff, and_iff_left_iff_imp]
  intro _
  have different : description.actions.Pairwise fun first second => first.names ≠ second.names :=
    List.pairwise_map.mp distinct
  refine different.imp_of_mem fun {first second} among amongToo apart labels => ?_
  obtain ⟨group, resource, method, isNamed⟩ := named first among
  obtain ⟨group', resource', method', isNamedToo⟩ := named second amongToo
  refine absurd labels (ActionPlace.label_ne_of_names_ne isNamed isNamedToo ?_ apart)
  have mine : ∀ name ∈ [resource, method], ¬ ['/', ' '] <+: name.toList := fun name is =>
    begins first among name (by rw [isNamed.names]; grind)
  have theirs : ∀ name ∈ [resource', method'], ¬ ['/', ' '] <+: name.toList := fun name is =>
    begins second amongToo name (by rw [isNamedToo.names]; grind)
  grind

namespace TwoExamples

/-! Descriptions with one action, which has the given examples. -/

def describe (examples : List (Mapping Json)) : Description :=
  [("resourceGroups", .array [.object [("name", .string "Notes"), ("resources", .array
    [.object [("name", .string "Note"), ("actions", .array [.object [("method", .string "GET"),
      ("examples", .array (examples.map Json.object))]])]])]])]

/-- An example with a request and two responses. -/
def exchange : Mapping Json :=
  [("requests", .array [.object []]), ("responses", .array [.object [], .object []])]

theorem named (examples : List (Mapping Json)) :
    ∀ place ∈ (describe examples).actions, ∃ group resource method,
      place.Named group resource method := by
  intro place isPlace
  obtain rfl := List.mem_singleton.mp isPlace
  exact ⟨"Notes", "Note", "GET", rfl, by decide⟩

theorem places (examples : List (Mapping Json)) :
    ∃ place, (describe examples).actions = [place] ∧ place.examples = examples := by
  refine ⟨_, rfl, ?_⟩
  show (examples.map Json.object).filterMap Json.entries? = examples
  rw [List.filterMap_map]
  exact List.filterMap_some

theorem labels_distinct_iff_single :
    ((discover (describe [exchange])).map Payload.label).Nodup := by
  have distinct : ((describe [exchange]).actions.map ActionPlace.names).Nodup :=
    List.nodup_singleton _
  refine ((labels_distinct_iff (named _) distinct).1.mpr ⟨fun place isPlace => ?_, ?_⟩)
  · obtain ⟨only, actions, examples⟩ := places [exchange]
    obtain rfl := List.mem_singleton.mp (actions ▸ isPlace)
    rw [ActionPlace.NumbersOnce, examples]
    exact List.pairwise_singleton _ _
  · exact List.pairwise_singleton _ _

/-- Two examples of one action both begin with the first response. -/
theorem labels_repeat :
    (∀ place ∈ (describe [exchange, exchange]).actions, ∃ group resource method,
      place.Named group resource method) ∧
    ((describe [exchange, exchange]).actions.map ActionPlace.names).Nodup ∧
    ¬ ((discover (describe [exchange, exchange])).map Payload.label).Nodup := by
  refine ⟨named _, List.nodup_singleton _, fun nodup => ?_⟩
  obtain ⟨only, actions, examples⟩ := places [exchange, exchange]
  have once := (nodup_labels_iff.mp nodup).1 only (by rw [actions]; exact List.mem_singleton_self _)
  rw [ActionPlace.NumbersOnce, examples, List.pairwise_pair] at once
  rcases once .response with none | none <;> cases none

end TwoExamples

end Mson
