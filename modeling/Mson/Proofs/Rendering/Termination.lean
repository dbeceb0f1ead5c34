import Mson.Proofs.Reachability
import Mson.Proofs.Rendering.Success

/-!
# The cycle check guards rendering

Rendering goes on with elements that inheritance makes and with lists that mixins are spliced into,
so no tree gets smaller. What gets used up are names: where no cyclic type is reachable, following
mentions comes to an end (`acc_mentioned_of_acyclic`), and along that order every declaration is
known to be rendered to its end, alone and under any element laid over it (`EndsUnder`). Within one
declaration the tree is followed down.

That visits come to an end (`Ends`) is then counted out: an element whose visits have their limits has
a limit itself.
-/
namespace Mson

variable {types : SymbolTable}

/-! ## Visits come to an end -/

/-- Whether no sequence of visits goes on for ever from a visit. -/
abbrev Ends (types : SymbolTable) (visit : Visit) : Prop :=
  Acc (fun after before => Step types before after) visit

/-- Whether visits come to an end from an element in either place, and from all elements below. -/
inductive Element.Ends (types : SymbolTable) : Element → Prop
  | intro {element : Element} (rendered : Mson.Ends types (.rendered element))
      (listed : Mson.Ends types (.listed element))
      (children : ∀ child ∈ element.children, Element.Ends types child) : Element.Ends types element

namespace Element.Ends

variable {element : Element}

theorem rendered (ends : element.Ends types) : Mson.Ends types (.rendered element) := by
  cases ends with
  | intro rendered _ _ => exact rendered

theorem listed (ends : element.Ends types) : Mson.Ends types (.listed element) := by
  cases ends with
  | intro _ listed _ => exact listed

theorem child (ends : element.Ends types) {child : Element} (member : child ∈ element.children) :
    child.Ends types := by
  cases ends with
  | intro _ _ children => exact children child member

end Element.Ends

/-- Whether rendering a name comes to an end: its declaration, its children where they are included,
and every element laid over the declaration. -/
def EndsUnder (types : SymbolTable) (name : String) : Prop :=
  ∀ declaration, Mapping.get? types name = some declaration →
    declaration.Ends types ∧
      ∀ derived : Element, (∀ child ∈ derived.children, child.Ends types) →
        Ends types (.rendered (resolveInheritance declaration derived))

theorem ends_listed_optionSet {group : Element} (isOptionSet : group.isOptionSet = true)
    (children : ∀ child ∈ group.children, child.Ends types) : Ends types (.listed group) := by
  refine Acc.intro _ fun after next => ?_
  cases next with
  | mixin isReference _ =>
    have kind : group.kind = some .optionSet := of_decide_eq_true isOptionSet
    have other : group.kind = some .reference := of_decide_eq_true isReference
    rw [kind] at other
    cases other
  | value slot _ => exact absurd isOptionSet (not_isOptionSet_of_slot slot)
  | option _ child => exact (children _ child).rendered
  | firstOption _ first child => exact ((children _ (List.mem_of_mem_head? first)).child child).listed

/-- An element that looks nothing up leads to its children only. -/
theorem ends_rendered_of_children {element : Element} {kind : Kind}
    (known : element.kind = some kind) (noReference : kind ≠ .reference)
    (children : ∀ child ∈ element.children, child.Ends types) : Ends types (.rendered element) := by
  refine Acc.intro _ fun after next => ?_
  cases next with
  | item _ child => exact (children _ child).rendered
  | firstChoice _ first => exact (children _ (List.mem_of_mem_head? first)).rendered
  | objectMember _ child => exact (children _ child).listed
  | optionSet kind => exact ends_listed_optionSet (decide_eq_true kind) children
  | target isReference _ =>
    rw [known] at isReference
    cases isReference
    exact absurd rfl noReference
  | inherit unnamed _ =>
    rw [known] at unnamed
    cases unnamed

/-- An element comes to an end with its parts and with the names that it looks up. -/
theorem Element.ends_of_parts {element : Element}
    (children : ∀ child ∈ element.children, child.Ends types)
    (value : ∀ value, element.memberValue? = some value → value.Ends types)
    (base : element.kind = none → EndsUnder types element.name)
    (target : element.kind = some .reference → ∀ name, element.target? = some name →
      EndsUnder types name) : element.Ends types := by
  refine .intro ?_ (Acc.intro _ fun after next => ?_) children
  · by_cases unknown : element.kind = none
    · refine Acc.intro _ fun after next => ?_
      obtain ⟨declaration, found, rfl⟩ := next.of_unknown_kind unknown
      exact (base unknown declaration found).2 element children
    · obtain ⟨kind, known⟩ := Option.ne_none_iff_exists'.mp unknown
      by_cases isReference : kind = .reference
      · subst isReference
        refine Acc.intro _ fun after next => ?_
        obtain ⟨name, declaration, named, found, rfl⟩ := next.of_reference known
        exact (target known name named declaration found).1.rendered
      · exact ends_rendered_of_children known isReference children
  · cases next with
    | mixin isReference included =>
      obtain ⟨name, declaration, named, declared, child⟩ := mem_includedChildren included
      exact ((target (of_decide_eq_true isReference) name named _ declared).1.child child).listed
    | value _ held => exact (value _ held).rendered
    | option _ child => exact (children _ child).rendered
    | firstOption _ first child =>
      exact ((children _ (List.mem_of_mem_head? first)).child child).listed

/-- The names that an element looks up are among those it mentions. -/
theorem Element.ends_of_mentions {element : Element}
    (mentioned : ∀ name ∈ element.mentions types, EndsUnder types name)
    (children : ∀ child ∈ element.children, child.Ends types)
    (value : ∀ value, element.memberValue? = some value → value.Ends types) :
    element.Ends types := by
  have undeclared : ∀ name, name ∉ Mapping.names types → EndsUnder types name :=
    fun name missing _ found => absurd (Mapping.mem_names_of_get? found) missing
  refine ends_of_parts children value (fun unknown => ?_) fun isReference name named => ?_
  · by_cases declared : element.name ∈ Mapping.names types
    · apply mentioned
      rw [mem_mentions_iff (by simp [unknown]) (by simp [unknown])]
      exact .inl ⟨unknown, rfl, declared⟩
    · exact undeclared _ declared
  · by_cases declared : name ∈ Mapping.names types
    · apply mentioned
      rw [mentions_of_reference isReference, mem_targetMention, ← target?_eq_some_iff]
      exact ⟨named, declared⟩
    · exact undeclared _ declared

mutual

/-- Down one tree, everything comes to an end with the names that the tree mentions. -/
theorem Element.ends_of_wellShaped :
    ∀ element : Element, element.WellShaped →
      (∀ name ∈ element.mentions types, EndsUnder types name) → element.Ends types
  | ⟨name, .absent, metadata, attributes⟩, _, mentioned =>
    Element.ends_of_mentions mentioned (fun _ member => by cases member) fun _ held => by cases held
  | ⟨name, .literal value, metadata, attributes⟩, _, mentioned =>
    Element.ends_of_mentions mentioned (fun _ member => by cases member) fun _ held => by cases held
  | ⟨name, .member key none, metadata, attributes⟩, _, mentioned =>
    Element.ends_of_mentions mentioned (fun _ member => by cases member) fun _ held => by cases held
  | ⟨name, .member key (some value), metadata, attributes⟩, shaped, mentioned => by
    have isMember : Element.kind ⟨name, .member key (some value), metadata, attributes⟩ =
      some .member := shaped.2.1
    have below : value.Ends types := by
      refine Element.ends_of_wellShaped value shaped.2.2.2 fun other mentionedBelow => ?_
      apply mentioned
      rw [Element.mentions_of_member isMember]
      exact mentionedBelow
    refine Element.ends_of_mentions mentioned (fun _ member => by cases member) fun other held => ?_
    cases held
    exact below
  | ⟨name, .children items, metadata, attributes⟩, shaped, mentioned => by
    obtain ⟨noMember, noReference, itemsShaped⟩ := shaped.2
    have below : ∀ item ∈ items, item.Ends types := by
      refine ends_of_allWellShaped items itemsShaped fun other mentionedBelow => ?_
      apply mentioned
      rw [Element.mem_mentions_iff]
      · exact .inr (mem_mentionsOfAll.mp mentionedBelow)
      · exact noReference
      · exact noMember
    exact Element.ends_of_mentions mentioned below fun _ held => by cases held

theorem ends_of_allWellShaped :
    ∀ items : List Element, AllWellShaped items →
      (∀ name ∈ mentionsOfAll types items, EndsUnder types name) → ∀ item ∈ items, item.Ends types
  | [], _, _ => fun _ member => by cases member
  | item :: items, shaped, mentioned => by
    have first : item.Ends types := Element.ends_of_wellShaped item shaped.1 fun name here =>
      mentioned name (List.mem_append_left _ here)
    have rest := ends_of_allWellShaped items shaped.2 fun name later =>
      mentioned name (List.mem_append_right _ later)
    exact List.forall_mem_cons.mpr ⟨first, rest⟩

end

/-- Whether no type is declared as a reference to another one. -/
def SymbolTable.NoReferences (types : SymbolTable) : Prop :=
  ∀ entry ∈ types, entry.2.kind ≠ some .reference

/-- Where following mentions comes to an end, so do visits: what is laid over a declaration brings no
names to look up, since a declaration is no reference. -/
theorem endsUnder_of_acc (parsed : types.Parsed) (noReferences : types.NoReferences) {name : String}
    (acc : Acc (fun next previous => next ∈ successors types previous) name) :
    EndsUnder types name := by
  induction acc with
  | intro name _ ih =>
    intro declaration found
    rw [successors_of_get? found] at ih
    have own : declaration.Ends types := declaration.ends_of_wellShaped (parsed.wellShaped found) ih
    refine ⟨own, fun derived derivedChildren => ?_⟩
    have children : ∀ child ∈ (resolveInheritance declaration derived).children,
        child.Ends types := fun child member =>
      (Element.mem_children_resolveInheritance member).elim own.child (derivedChildren child)
    by_cases unknown : declaration.kind = none
    · refine Acc.intro _ fun after next => ?_
      have kind : (resolveInheritance declaration derived).kind = none := unknown
      obtain ⟨base, inherited, rfl⟩ := next.of_unknown_kind kind
      have mentioned : declaration.name ∈ declaration.mentions types := by
        rw [Element.mem_mentions_iff (by simp [unknown]) (by simp [unknown])]
        exact .inl ⟨unknown, rfl, Mapping.mem_names_of_get? inherited⟩
      exact (ih declaration.name mentioned base inherited).2 _ children
    · obtain ⟨kind, known⟩ := Option.ne_none_iff_exists'.mp unknown
      refine ends_rendered_of_children known ?_ children
      rintro rfl
      exact noReferences _ (Mapping.mem_of_get? found) known

/-! ## Limits of what comes to an end -/

/-- Whether limits are enough for what a member contributes to a schema and to an example. -/
def MemberSettled (types : SymbolTable) (steps depth : Nat) (member : Element) : Prop :=
  (∀ parts, Settled (Schema.addMember (renderSchemaWithin steps types depth) parts member)) ∧
    ∀ entries, Settled (Example.addMember (renderExampleWithin steps types depth)
      (renderMembersWithin steps types depth) entries member)

/-- Whether limits are enough for the members of an object. -/
def MembersSettled (types : SymbolTable) (steps depth : Nat) (members : List Element) : Prop :=
  ∃ expanded, expandWithin types steps members = some expanded ∧
    ∀ member ∈ expanded, MemberSettled types steps depth member

/-- Whether limits are enough for a visit. -/
def SettledAt (types : SymbolTable) (steps depth : Nat) : Visit → Prop
  | .rendered element =>
      Settled (renderSchemaWithin steps types depth element) ∧
        Settled (renderExampleWithin steps types depth element)
  | .listed member => MembersSettled types steps depth [member]

section Limits

variable {steps more depth deeper : Nat}

theorem MemberSettled.mono {member : Element} (settled : MemberSettled types steps depth member)
    (enough : steps ≤ more) (deep : depth ≤ deeper) : MemberSettled types more deeper member := by
  have agree := throughout_agree_self types
  refine ⟨fun parts => Extends.settled ?_ (settled.1 parts),
    fun entries => Extends.settled ?_ (settled.2 entries)⟩
  · exact Schema.addMember_extends
      (fun element (_ : Step types _ _) =>
        renderSchemaWithin_extends enough deep (agree (.rendered element))) parts
  · exact Example.addMember_extends
      (fun element (_ : Step types _ _) =>
        (renderExampleWithin_extends enough deep).1 element (agree _))
      (fun members _ => (renderExampleWithin_extends enough deep).2 members fun _ _ => agree _)
      entries

theorem MembersSettled.mono {members : List Element}
    (settled : MembersSettled types steps depth members) (enough : steps ≤ more)
    (deep : depth ≤ deeper) : MembersSettled types more deeper members := by
  obtain ⟨expanded, success, each⟩ := settled
  exact ⟨expanded, expandWithin_mono enough success,
    fun member source => (each member source).mono enough deep⟩

theorem SettledAt.mono {visit : Visit} (settled : SettledAt types steps depth visit)
    (enough : steps ≤ more) (deep : depth ≤ deeper) : SettledAt types more deeper visit := by
  have agree := throughout_agree_self types
  cases visit with
  | rendered element =>
    exact ⟨(renderSchemaWithin_extends enough deep (agree _)).settled settled.1,
      ((renderExampleWithin_extends enough deep).1 element (agree _)).settled settled.2⟩
  | listed member =>
    have single : MembersSettled types steps depth [member] := settled
    exact single.mono enough deep

theorem MembersSettled.append {first second : List Element}
    (one : MembersSettled types steps depth first) (two : MembersSettled types more deeper second) :
    MembersSettled types (steps + more) (depth + deeper) (first ++ second) := by
  obtain ⟨expandedFirst, successFirst, eachFirst⟩ := one
  obtain ⟨expandedSecond, successSecond, eachSecond⟩ := two
  refine ⟨_, expandWithin_append successFirst successSecond, fun member source => ?_⟩
  rcases List.mem_append.mp source with left | right
  · exact (eachFirst member left).mono (by omega) (by omega)
  · exact (eachSecond member right).mono (by omega) (by omega)

end Limits

/-- Lists of visits that have limits have common limits. -/
theorem exists_limits_of_each {items : List Element} {visit : Element → Visit}
    (each : ∀ item ∈ items, ∃ steps depth, SettledAt types steps depth (visit item)) :
    ∃ steps depth, ∀ item ∈ items, SettledAt types steps depth (visit item) := by
  induction items with
  | nil => exact ⟨0, 0, fun _ member => by cases member⟩
  | cons item rest ih =>
    obtain ⟨⟨steps, depth, first⟩, later⟩ := List.forall_mem_cons.mp each
    obtain ⟨more, deeper, others⟩ := ih later
    refine ⟨steps + more, depth + deeper, List.forall_mem_cons.mpr ⟨?_, fun other member => ?_⟩⟩
    · exact first.mono (by omega) (by omega)
    · exact (others other member).mono (by omega) (by omega)

theorem exists_membersSettled {members : List Element}
    (each : ∀ member ∈ members, ∃ steps depth, SettledAt types steps depth (.listed member)) :
    ∃ steps depth, MembersSettled types steps depth members := by
  induction members with
  | nil => exact ⟨0, 0, [], rfl, fun _ member => by cases member⟩
  | cons member rest ih =>
    obtain ⟨⟨steps, depth, first⟩, later⟩ := List.forall_mem_cons.mp each
    obtain ⟨more, deeper, others⟩ := ih later
    have whole : MembersSettled types (steps + more) (depth + deeper) ([member] ++ rest) :=
      MembersSettled.append first others
    exact ⟨_, _, whole⟩

theorem settled_widenIfNullable (element : Element) (schema : Schema) :
    Settled (Schema.widenIfNullable element schema) := by
  refine settled_composes.bind (settled_mapError fun _ => rfl) fun nullable _ => ?_
  cases nullable with
  | false => exact settled_ok _
  | true => exact settled_mapError fun _ => rfl

theorem settledAt_rendered {steps depth : Nat} {element : Element}
    (schema : Settled (Schema.ofKind steps types (renderSchemaWithin steps types depth) element))
    (example_ : Settled (renderExampleWithin steps types (depth + 1) element)) :
    SettledAt types steps (depth + 1) (.rendered element) := by
  refine ⟨?_, example_⟩
  rw [renderSchemaWithin_succ]
  exact settled_composes.bind schema fun _ _ => settled_widenIfNullable element _

namespace MembersSettled

variable {steps depth : Nat} {members : List Element}
  (settled : MembersSettled types steps depth members)

include settled

theorem schema :
    Settled (Schema.ofMembers steps types (renderSchemaWithin steps types depth) members) := by
  obtain ⟨expanded, success, each⟩ := settled
  unfold Schema.ofMembers
  rw [success]
  exact settled_composes.bind
    (settled_composes.foldlM fun member source parts => (each member source).1 parts)
    fun _ _ => settled_ok _

theorem example_ : Settled (renderMembersWithin steps types (depth + 1) members) := by
  obtain ⟨expanded, success, each⟩ := settled
  rw [renderMembersWithin, success]
  exact settled_composes.foldlM fun member source entries => (each member source).2 entries

end MembersSettled

/-- An element that is rendered as an object of the given members has limits if they have. -/
theorem exists_limits_ofMembers {element : Element} {members : List Element}
    (schema : ∀ steps render, Schema.ofKind steps types render element =
      Schema.ofMembers steps types render members)
    (example_ : ∀ steps depth, renderExampleWithin steps types (depth + 1) element =
      do return .object (← renderMembersWithin steps types depth members))
    (each : ∀ member ∈ members, ∃ steps depth, SettledAt types steps depth (.listed member)) :
    ∃ steps depth, SettledAt types steps depth (.rendered element) := by
  obtain ⟨steps, depth, settled⟩ := exists_membersSettled each
  refine ⟨steps, depth + 2, settledAt_rendered ?_ ?_⟩
  · rw [schema]
    exact (settled.mono (Nat.le_refl _) (Nat.le_succ _)).schema
  · rw [example_]
    exact settled_composes.bind settled.example_ fun _ _ => settled_ok _

/-- An element has limits if everything it directly leads to has. -/
theorem exists_limits_rendered {element : Element}
    (each : ∀ after, Step types (.rendered element) after →
      ∃ steps depth, SettledAt types steps depth after) :
    ∃ steps depth, SettledAt types steps depth (.rendered element) := by
  cases kind : element.kind with
  | none =>
    cases found : Mapping.get? types element.name with
    | none =>
      refine ⟨0, 1, settledAt_rendered ?_ ?_⟩
      · simp only [Schema.ofKind, kind, found, settled_ok]
      · simp only [renderExampleWithin, kind, found]
        exact settled_ok _
    | some base =>
      obtain ⟨steps, depth, schema, example_⟩ := each _ (.inherit kind found)
      refine ⟨steps, depth + 1, settledAt_rendered ?_ ?_⟩
      · simp only [Schema.ofKind, kind, found, schema]
      · simp only [renderExampleWithin, kind, found, example_]
  | some known =>
    cases known with
    | boolean | string | number | member =>
      refine ⟨0, 1, settledAt_rendered ?_ ?_⟩
      · simp only [Schema.ofKind, kind, settled_ok]
      · simp only [renderExampleWithin, kind]
        exact settled_ok _
    | enum =>
      cases children : element.children with
      | nil =>
        refine ⟨0, 1, settledAt_rendered ?_ ?_⟩
        · simp only [Schema.ofKind, kind, settled_ok]
        · simp only [renderExampleWithin, kind, children]
          exact settled_ok _
      | cons choice rest =>
        obtain ⟨steps, depth, -, example_⟩ := each _ (.firstChoice kind (by rw [children]; rfl))
        refine ⟨steps, depth + 1, settledAt_rendered ?_ ?_⟩
        · simp only [Schema.ofKind, kind, settled_ok]
        · simp only [renderExampleWithin, kind, children, example_]
    | array =>
      obtain ⟨steps, depth, items⟩ := exists_limits_of_each fun item child =>
        each (.rendered item) (.item kind child)
      refine ⟨steps, depth + 1, settledAt_rendered ?_ ?_⟩
      · simp only [Schema.ofKind, kind, Schema.ofArray]
        exact settled_composes.bind (settled_composes.mapM fun item child => (items item child).1)
          fun _ _ => settled_ok _
      · simp only [renderExampleWithin, kind]
        exact settled_composes.bind (settled_composes.mapM fun item child => (items item child).2)
          fun _ _ => settled_ok _
    | object =>
      refine exists_limits_ofMembers (fun _ _ => ?_) (fun _ _ => ?_) fun member child =>
        each (.listed member) (.objectMember (.inl kind) child)
      · simp only [Schema.ofKind, kind]
      · simp only [renderExampleWithin, kind]
    | option =>
      refine exists_limits_ofMembers (fun _ _ => ?_) (fun _ _ => ?_) fun member child =>
        each (.listed member) (.objectMember (.inr kind) child)
      · simp only [Schema.ofKind, kind]
      · simp only [renderExampleWithin, kind]
    | optionSet =>
      have alone : ∀ member ∈ [element], ∃ steps depth, SettledAt types steps depth (.listed member) :=
        fun member single => by
          rw [List.mem_singleton.mp single]
          exact each _ (.optionSet kind)
      refine exists_limits_ofMembers (fun _ _ => ?_) (fun _ _ => ?_) alone
      · simp only [Schema.ofKind, kind]
      · simp only [renderExampleWithin, kind]
    | reference =>
      cases found : element.target?.bind (Mapping.get? types) with
      | none =>
        refine ⟨0, 1, settledAt_rendered ?_ ?_⟩
        · simp only [Schema.ofKind, kind, found, settled_ok]
        · simp only [renderExampleWithin, kind, found]
          exact settled_ok _
      | some target =>
        obtain ⟨steps, depth, schema, example_⟩ := each _ (.target kind found)
        refine ⟨steps, depth + 1, settledAt_rendered ?_ ?_⟩
        · simp only [Schema.ofKind, kind, found, schema]
        · simp only [renderExampleWithin, kind, found, example_]

section Member

variable {steps depth : Nat} {member : Element}

/-- A group of options contributes the schemas of all and the example of the first. -/
theorem memberSettled_optionSet (isOptionSet : member.isOptionSet = true)
    (options : ∀ option ∈ member.children, SettledAt types steps (depth + 1) (.rendered option))
    (first : ∀ option, member.children.head? = some option →
      MembersSettled types steps depth option.children) :
    MemberSettled types steps (depth + 1) member := by
  constructor
  · intro parts
    unfold Schema.addMember
    rw [if_pos isOptionSet]
    refine settled_composes.bind (settled_composes.foldlM fun option child found => ?_)
      fun _ _ => settled_ok _
    exact settled_composes.bind (options option child).1 fun _ _ => settled_ok _
  · intro entries
    unfold Example.addMember
    rw [if_pos isOptionSet]
    split
    · exact settled_ok _
    · rename_i option rest children
      have members := first option (by rw [children]; rfl)
      exact settled_composes.bind members.example_ fun _ _ => settled_ok _

/-- Any other member contributes its value, if it has a key. -/
theorem memberSettled_value (noOptionSet : ¬ member.isOptionSet = true)
    (settled : ∀ key value, member.slot? = some key → member.memberValue? = some value →
      SettledAt types steps depth (.rendered value)) : MemberSettled types steps depth member := by
  constructor
  · intro parts
    unfold Schema.addMember
    rw [if_neg noOptionSet]
    split
    · exact settled_ok _
    · rename_i key slot
      refine settled_composes.bind ?_ fun property _ =>
        settled_composes.bind (settled_mapError fun _ => rfl) fun _ _ =>
          settled_composes.bind (settled_widenIfNullable member _) fun _ _ => settled_ok _
      unfold Schema.propertySchema
      split
      · rename_i value present
        exact settled_composes.bind (settled key value slot present).1 fun _ _ => settled_ok _
      · exact settled_ok _
  · intro entries
    unfold Example.addMember
    rw [if_neg noOptionSet]
    split
    · rename_i key value slot present
      exact settled_composes.bind (settled key value slot present).2 fun _ _ => settled_ok _
    · exact settled_ok _

/-- What a member contributes by itself has limits if everything it directly leads to has. -/
theorem exists_memberSettled
    (each : ∀ after, Step types (.listed member) after →
      ∃ steps depth, SettledAt types steps depth after) :
    ∃ steps depth, MemberSettled types steps depth member := by
  by_cases isOptionSet : member.isOptionSet = true
  · obtain ⟨steps, depth, options⟩ := exists_limits_of_each fun option child =>
      each (.rendered option) (.option isOptionSet child)
    have first : ∃ steps depth, ∀ option, member.children.head? = some option →
        MembersSettled types steps depth option.children := by
      cases children : member.children with
      | nil => exact ⟨0, 0, fun _ impossible => by cases impossible⟩
      | cons option rest =>
        obtain ⟨steps, depth, settled⟩ := exists_membersSettled fun child among =>
          each (.listed child) (.firstOption isOptionSet (by rw [children]; rfl) among)
        exact ⟨steps, depth, fun other same => by cases same; exact settled⟩
    obtain ⟨more, deeper, listed⟩ := first
    refine ⟨steps + more, depth + deeper + 1, memberSettled_optionSet isOptionSet
      (fun option child => ?_) fun option head => ?_⟩
    · exact (options option child).mono (by omega) (by omega)
    · exact (listed option head).mono (by omega) (by omega)
  · cases slot : member.slot? with
    | none =>
      refine ⟨0, 0, memberSettled_value isOptionSet fun _ _ found => ?_⟩
      rw [slot] at found
      cases found
    | some key =>
      cases held : member.memberValue? with
      | none =>
        refine ⟨0, 0, memberSettled_value isOptionSet fun _ _ _ found => ?_⟩
        rw [held] at found
        cases found
      | some value =>
        obtain ⟨steps, depth, settled⟩ := each _ (.value slot held)
        refine ⟨steps, depth, memberSettled_value isOptionSet fun _ _ _ found => ?_⟩
        rw [held] at found
        cases found
        exact settled

/-- A listed element has limits if everything it directly leads to has: a mixin takes one step more
than the children it includes. -/
theorem exists_limits_listed
    (each : ∀ after, Step types (.listed member) after →
      ∃ steps depth, SettledAt types steps depth after) :
    ∃ steps depth, SettledAt types steps depth (.listed member) := by
  by_cases isReference : member.isReference = true
  · obtain ⟨steps, depth, expanded, success, settled⟩ :=
      exists_membersSettled fun child included => each (.listed child) (.mixin isReference included)
    refine ⟨steps + 1, depth, expanded, ?_, fun other source => ?_⟩
    · rw [expandWithin_cons_reference isReference, List.append_nil]
      exact success
    · exact (settled other source).mono (Nat.le_succ _) (Nat.le_refl _)
  · obtain ⟨steps, depth, settled⟩ := exists_memberSettled each
    refine ⟨steps + 1, depth, [member], ?_, fun other source => ?_⟩
    · rw [expandWithin_cons_other isReference, expandWithin_nil]
      rfl
    · rw [List.mem_singleton.mp source]
      exact settled.mono (Nat.le_succ _) (Nat.le_refl _)

end Member

/-- Limits are counted out along the end of visits. -/
theorem exists_limits_of_ends {visit : Visit} (ends : Ends types visit) :
    ∃ steps depth, SettledAt types steps depth visit := by
  induction ends with
  | intro visit _ ih =>
    cases visit with
    | rendered element => exact exists_limits_rendered ih
    | listed member => exact exists_limits_listed ih

/-- Where no type is declared as a reference and no cyclic type is reachable, visits come to an end,
and some limits, and all greater ones, give the schema and the example. -/
theorem acyclic_terminates {element : Element} (parsedTypes : types.Parsed)
    (parsed : element.Parsed) (noReferences : types.NoReferences)
    (acyclic : ∀ name ∈ reachableNames types element, name ∉ cyclicNames types) :
    Ends types (.rendered element) ∧ ∃ bound schema example_, ∀ steps depth, bound ≤ steps →
      bound ≤ depth → renderSchemaWithin steps types depth element = .ok schema ∧
        renderExampleWithin steps types depth element = .ok example_ := by
  have named : ∀ name ∈ element.mentions types, EndsUnder types name := fun name mentioned =>
    endsUnder_of_acc parsedTypes noReferences
      (acc_mentioned_of_acyclic acyclic (mem_reachableNames_of_mentions mentioned))
  have ends : Ends types (.rendered element) :=
    (element.ends_of_wellShaped parsed.wellShaped named).rendered
  refine ⟨ends, ?_⟩
  obtain ⟨steps, depth, settledSchema, settledExample⟩ := exists_limits_of_ends ends
  obtain ⟨schema, rendersSchema⟩ := exists_schema_of_settled parsedTypes parsed settledSchema
  obtain ⟨example_, rendersExample⟩ := exists_example_of_settled settledExample
  refine ⟨max steps depth, schema, example_, fun more deeper enough deep => ⟨?_, ?_⟩⟩
  · rw [← rendersSchema]
    exact renderSchemaWithin_extends (by omega) (by omega) (throughout_agree_self types _)
      settledSchema
  · rw [← rendersExample]
    exact (renderExampleWithin_extends (by omega) (by omega)).1 element
      (throughout_agree_self types _) settledExample

namespace Inclusion

/-- An object that includes the members of another one. -/
def table : SymbolTable :=
  [("A", ⟨"object", .children [⟨"ref", .literal (.string "B"), [], []⟩], [], []⟩),
    ("B", ⟨"object", .children [⟨"member", .member ⟨"string", .literal (.string "id"), [], []⟩
      (some ⟨"number", .absent, [], []⟩), [], []⟩], [], []⟩)]

def element : Element := ⟨"A", .absent, [], []⟩

theorem table_parsed : table.Parsed := by
  rintro entry (_ | ⟨_, _ | ⟨_, ⟨⟩⟩⟩)
  · exact ⟨.object [("element", .string "object"), ("content", .array
      [.object [("element", .string "ref"), ("content", .string "B")]])], by decide, rfl⟩
  · exact ⟨.object [("element", .string "object"), ("content", .array
      [.object [("element", .string "member"), ("content", .object
        [("key", .object [("element", .string "string"), ("content", .string "id")]),
          ("value", .object [("element", .string "number")])])]])], by decide, rfl⟩

theorem acyclic_terminates_inclusion :
    reachableNames table element = ["B", "A"] ∧ (∀ name ∈ ["B", "A"], name ∉ cyclicNames table) ∧
      Ends table (.rendered element) ∧ ∃ bound schema example_, ∀ steps depth, bound ≤ steps →
        bound ≤ depth → renderSchemaWithin steps table depth element = .ok schema ∧
          renderExampleWithin steps table depth element = .ok example_ := by
  have ofElement : element.mentions table = ["A"] := by decide
  have ofA : successors table "A" = ["B"] := by decide
  have ofB : successors table "B" = [] := by decide
  have reachable : reachableNames table element = ["B", "A"] := by
    rw [reachableNames, ofElement, reachFrom_cons_fresh (by decide) (by decide), ofA,
      List.singleton_append, reachFrom_cons_fresh (by decide) (by decide), ofB, List.nil_append,
      reachFrom_nil]
  have acyclic : ∀ name ∈ ["B", "A"], name ∉ cyclicNames table := by
    intro name _ cyclic
    obtain ⟨declaration, member, back⟩ := mem_cyclicNames_iff.mp cyclic
    rcases member with _ | ⟨_, _ | ⟨_, ⟨⟩⟩⟩
    · rw [reachableNames_of_single (by decide) (by decide) ofB] at back
      revert back
      decide
    · change "B" ∈ reachFrom table [] (successors table "B") at back
      rw [ofB, reachFrom_nil] at back
      cases back
  have parsed : element.Parsed := ⟨.object [("element", .string "A")], by decide, rfl⟩
  have noReferences : table.NoReferences := by
    rintro entry (_ | ⟨_, _ | ⟨_, ⟨⟩⟩⟩) <;> decide
  exact ⟨reachable, acyclic, acyclic_terminates table_parsed parsed noReferences (reachable ▸ acyclic)⟩

end Inclusion

end Mson
