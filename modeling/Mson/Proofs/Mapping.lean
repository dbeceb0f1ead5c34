import Mson.Mapping
import Mson.Proofs.Placement

/-!
# Laws of mappings

Every operation on mappings is known by what `get?` finds afterwards and by the names that are there;
the other modules use these laws and do not open the operations. Where a law needs that no name
stands twice, it says so.
-/
namespace Mson.Mapping

variable {α β : Type}

@[simp] theorem get?_nil (name : String) : get? ([] : Mapping α) name = none := rfl

theorem get?_cons (other name : String) (value : α) (rest : Mapping α) :
    get? ((other, value) :: rest) name = if other = name then some value else get? rest name := rfl

@[simp] theorem get?_cons_self (name : String) (value : α) (rest : Mapping α) :
    get? ((name, value) :: rest) name = some value := by
  rw [get?_cons, if_pos rfl]

@[simp] theorem names_nil : names ([] : Mapping α) = [] := rfl

@[simp] theorem names_cons (entry : String × α) (rest : Mapping α) :
    names (entry :: rest) = entry.1 :: names rest := rfl

@[simp] theorem names_mapValues (f : α → β) (entries : Mapping α) :
    names (mapValues f entries) = names entries := by
  simp [names, mapValues]

theorem mapValues_cons (f : α → β) (entry : String × α) (rest : Mapping α) :
    mapValues f (entry :: rest) = (entry.1, f entry.2) :: mapValues f rest := rfl

theorem get?_mapValues (f : α → β) (entries : Mapping α) (name : String) :
    get? (mapValues f entries) name = (get? entries name).map f := by
  induction entries with
  | nil => rfl
  | cons entry rest ih =>
    obtain ⟨other, value⟩ := entry
    rw [mapValues_cons, get?_cons, get?_cons, ih]
    split <;> rfl

theorem mem_of_get? {entries : Mapping α} {name : String} {value : α}
    (found : get? entries name = some value) : (name, value) ∈ entries := by
  induction entries with
  | nil => cases found
  | cons entry rest ih =>
    obtain ⟨other, old⟩ := entry
    rw [get?_cons] at found
    split at found
    · rename_i same
      cases found
      rw [same]
      exact List.mem_cons_self
    · exact List.mem_cons_of_mem _ (ih found)

theorem get?_of_mem {entries : Mapping α} (distinct : NamesDistinct entries) {name : String}
    {value : α} (member : (name, value) ∈ entries) : get? entries name = some value := by
  induction entries with
  | nil => cases member
  | cons entry rest ih =>
    have parts := List.nodup_cons.mp distinct
    rcases List.mem_cons.mp member with rfl | later
    · exact get?_cons_self ..
    · have other : entry.1 ≠ name := fun same =>
        parts.1 (same ▸ List.mem_map.mpr ⟨(name, value), later, rfl⟩)
      rw [get?_cons, if_neg other, ih parts.2 later]

theorem get?_eq_none_iff {entries : Mapping α} {name : String} :
    get? entries name = none ↔ name ∉ names entries := by
  induction entries with
  | nil => simp
  | cons entry rest ih =>
    rw [get?_cons, names_cons, List.mem_cons, not_or]
    by_cases same : entry.1 = name
    · simp [same]
    · simp [same, ih, Ne.symm same]

theorem exists_get?_iff {entries : Mapping α} {name : String} :
    (∃ value, get? entries name = some value) ↔ name ∈ names entries := by
  rw [← Option.isSome_iff_exists, ← Option.ne_none_iff_isSome, Ne, get?_eq_none_iff,
    Decidable.not_not]

theorem has_iff {entries : Mapping α} {name : String} :
    has entries name = true ↔ name ∈ names entries := by
  rw [has, Option.isSome_iff_exists, exists_get?_iff]

theorem mem_names_of_get? {entries : Mapping α} {name : String} {value : α}
    (found : get? entries name = some value) : name ∈ names entries :=
  exists_get?_iff.mp ⟨value, found⟩

theorem get?_append (first second : Mapping α) (name : String) :
    get? (first ++ second) name = (get? first name).or (get? second name) := by
  induction first with
  | nil => rfl
  | cons entry rest ih =>
    rw [List.cons_append, get?_cons, get?_cons, ih]
    split <;> rfl

@[simp] theorem put_nil (name : String) (value : α) :
    put ([] : Mapping α) name value = [(name, value)] := rfl

theorem put_cons (other name : String) (old value : α) (rest : Mapping α) :
    put ((other, old) :: rest) name value =
      if other = name then (name, value) :: rest else (other, old) :: put rest name value := rfl

theorem get?_put (entries : Mapping α) (name wanted : String) (value : α) :
    get? (put entries name value) wanted =
      if name = wanted then some value else get? entries wanted := by
  induction entries with
  | nil => rw [put_nil, get?_cons]
  | cons entry rest ih =>
    obtain ⟨other, old⟩ := entry
    by_cases same : other = name
    · subst same
      simp only [put_cons, if_pos, get?_cons]
      split <;> rfl
    · simp only [put_cons, if_neg same, get?_cons, ih]
      by_cases here : other = wanted
      · subst here
        simp [Ne.symm same]
      · simp [here]

@[simp] theorem get?_put_self (entries : Mapping α) (name : String) (value : α) :
    get? (put entries name value) name = some value := by
  rw [get?_put, if_pos rfl]

theorem get?_put_of_ne (entries : Mapping α) {name wanted : String} (value : α)
    (different : name ≠ wanted) : get? (put entries name value) wanted = get? entries wanted := by
  rw [get?_put, if_neg different]

/-- What is not named first is written behind. -/
theorem put_append_of_not_mem {first : Mapping α} {name : String} (absent : name ∉ names first)
    (second : Mapping α) (value : α) :
    put (first ++ second) name value = first ++ put second name value := by
  induction first with
  | nil => rfl
  | cons entry rest ih =>
    rw [names_cons, List.mem_cons, not_or] at absent
    rw [List.cons_append, put_cons, if_neg (Ne.symm absent.1), ih absent.2, List.cons_append]

/-- Writing the value that a name has changes nothing. -/
theorem put_of_get? {entries : Mapping α} {name : String} {value : α}
    (found : get? entries name = some value) : put entries name value = entries := by
  induction entries with
  | nil => cases found
  | cons entry rest ih =>
    obtain ⟨other, old⟩ := entry
    rw [get?_cons] at found
    rw [put_cons]
    split at found
    · rename_i same
      cases found
      rw [if_pos same, same]
    · rename_i different
      rw [if_neg different, ih found]

/-- Writing an entry places it by its name. -/
theorem places_put : Places (fun entry : String × α => some entry.1)
    fun entries entry => put entries entry.1 entry.2 where
  nil _ := rfl
  replace {item first name} named same rest := by
    have sameName : first.1 = item.1 := Option.some.inj (same.trans named.symm)
    exact if_pos sameName
  pass {item first} other rest := by
    have different : first.1 ≠ item.1 := fun same => other item.1 rfl (congrArg some same)
    exact if_neg different

theorem keys_eq_names (entries : Mapping α) :
    entries.filterMap (fun entry => some entry.1) = names entries :=
  congrFun List.filterMap_eq_map entries

theorem mem_names_put {entries : Mapping α} {name wanted : String} {value : α} :
    wanted ∈ names (put entries name value) ↔ wanted = name ∨ wanted ∈ names entries := by
  rw [← keys_eq_names, ← keys_eq_names, or_comm, eq_comm, ← Option.some_inj]
  exact places_put.mem_keys_place_iff (name, value)

theorem NamesDistinct.put {entries : Mapping α} (distinct : NamesDistinct entries) (name : String)
    (value : α) : NamesDistinct (put entries name value) := by
  unfold NamesDistinct at distinct ⊢
  rw [← keys_eq_names] at distinct ⊢
  exact places_put.nodup_keys_place (name, value) distinct

theorem overwrite_cons (base : Mapping α) (entry : String × α) (changes : Mapping α) :
    overwrite base (entry :: changes) = overwrite (put base entry.1 entry.2) changes := rfl

theorem NamesDistinct.overwrite {base : Mapping α} (distinct : NamesDistinct base)
    (changes : Mapping α) : NamesDistinct (overwrite base changes) := by
  unfold NamesDistinct at distinct ⊢
  rw [← keys_eq_names] at distinct ⊢
  exact places_put.nodup_keys_foldl changes distinct

theorem mem_put {entries : Mapping α} {name : String} {value : α} {found : String × α}
    (member : found ∈ put entries name value) : found = (name, value) ∨ found ∈ entries := by
  induction entries with
  | nil => exact .inl (List.mem_singleton.mp member)
  | cons entry rest ih =>
    obtain ⟨other, old⟩ := entry
    rw [put_cons] at member
    split at member
    · exact (List.mem_cons.mp member).imp_right (List.mem_cons_of_mem _)
    · rcases List.mem_cons.mp member with rfl | later
      · exact .inr List.mem_cons_self
      · exact (ih later).imp_right (List.mem_cons_of_mem _)

theorem mem_overwrite {base changes : Mapping α} {found : String × α}
    (member : found ∈ overwrite base changes) : found ∈ base ∨ found ∈ changes := by
  induction changes generalizing base with
  | nil => exact .inl member
  | cons entry rest ih =>
    rcases ih member with put | later
    · rcases mem_put put with rfl | old
      · exact .inr List.mem_cons_self
      · exact .inl old
    · exact .inr (List.mem_cons_of_mem _ later)

/-- The changes win, provided that they name nothing twice: of two changes of one name the last
would win, where `get?` finds the first. -/
theorem get?_overwrite (base : Mapping α) {changes : Mapping α} (distinct : NamesDistinct changes)
    (name : String) :
    get? (overwrite base changes) name = (get? changes name).or (get? base name) := by
  induction changes generalizing base with
  | nil => rfl
  | cons entry rest ih =>
    have parts := List.nodup_cons.mp distinct
    rw [overwrite_cons, ih _ parts.2, get?_put, get?_cons]
    by_cases same : entry.1 = name
    · have absent : get? rest name = none := get?_eq_none_iff.mpr (same ▸ parts.1)
      simp [same, absent]
    · simp [same]

theorem overwrite_append (base first second : Mapping α) :
    overwrite base (first ++ second) = overwrite (overwrite base first) second :=
  List.foldl_append

/-- Entries that name nothing twice are written as they are. -/
theorem overwrite_nil {entries : Mapping α} (distinct : NamesDistinct entries) :
    overwrite [] entries = entries := by
  have whole : (([] ++ entries).filterMap fun entry : String × α => some entry.1).Nodup := by
    rwa [List.nil_append, keys_eq_names]
  exact places_put.foldl_eq_append whole

/-- Changes may be written onto one another before they are written onto a base. -/
theorem overwrite_assoc (base : Mapping α) {changes : Mapping α} (distinct : NamesDistinct changes)
    (later : Mapping α) :
    overwrite (overwrite base changes) later = overwrite base (overwrite changes later) := by
  refine (places_put.foldl_foldl ?_ base).symm
  rwa [keys_eq_names]

/-- Of changes that name something twice the last one counts. -/
theorem get?_overwrite_reverse (base changes : Mapping α) (name : String) :
    get? (overwrite base changes) name = (get? changes.reverse name).or (get? base name) := by
  induction changes generalizing base with
  | nil => rfl
  | cons entry rest ih =>
    rw [overwrite_cons, ih, List.reverse_cons, get?_append, Option.or_assoc, get?_put, get?_cons]
    split <;> rfl

theorem get?_overwrite_nil (changes : Mapping α) (name : String) :
    get? (overwrite [] changes) name = get? changes.reverse name := by
  rw [get?_overwrite_reverse, get?_nil, Option.or_none]

/-- From the end, a name has the value of its last entry. -/
theorem get?_reverse_eq_some_iff {entries : Mapping α} {name : String} {value : α} :
    get? entries.reverse name = some value ↔
      ∃ before after, entries = before ++ (name, value) :: after ∧ name ∉ names after := by
  have absent_iff : ∀ others : Mapping α, get? others.reverse name = none ↔ name ∉ names others := by
    intro others
    simp [get?_eq_none_iff, names]
  constructor
  · intro found
    induction entries with
    | nil => cases found
    | cons entry rest ih =>
      rw [List.reverse_cons, get?_append, Option.or_eq_some_iff] at found
      rcases found with later | ⟨noLater, here⟩
      · obtain ⟨before, after, rfl, absent⟩ := ih later
        exact ⟨entry :: before, after, rfl, absent⟩
      · rw [← List.mem_singleton.mp (mem_of_get? here)]
        exact ⟨[], rest, rfl, (absent_iff rest).mp noLater⟩
  · rintro ⟨before, after, rfl, absent⟩
    rw [List.reverse_append, List.reverse_cons, List.append_assoc, get?_append,
      (absent_iff after).mpr absent, Option.none_or, List.singleton_append, get?_cons_self]

/-- Changes hide what they are written onto, also where they name something twice. -/
theorem get?_overwrite_eq_or (base changes : Mapping α) (name : String) :
    get? (overwrite base changes) name = (get? (overwrite [] changes) name).or (get? base name) := by
  rw [get?_overwrite_reverse, get?_overwrite_nil]

/-- Names stand where they come first. -/
theorem names_overwrite_nil (changes : Mapping α) :
    names (overwrite [] changes) = (names changes).eraseDups := by
  rw [← keys_eq_names, ← keys_eq_names]
  exact places_put.keys_foldl changes

theorem mem_names_overwrite {base changes : Mapping α} {name : String} :
    name ∈ names (overwrite base changes) ↔ name ∈ names base ∨ name ∈ names changes := by
  induction changes generalizing base with
  | nil => simp [overwrite]
  | cons entry rest ih =>
    rw [overwrite_cons, ih, mem_names_put, names_cons, List.mem_cons, or_comm (a := name = entry.1),
      or_assoc]

theorem get?_filter_name (entries : Mapping α) (keep : String → Bool) (name : String) :
    get? (entries.filter fun entry => keep entry.1) name =
      if keep name then get? entries name else none := by
  induction entries with
  | nil => simp
  | cons entry rest ih =>
    rw [List.filter_cons, get?_cons]
    by_cases kept : keep entry.1 = true
    · rw [if_pos kept, get?_cons, ih]
      by_cases same : entry.1 = name
      · simp [same, same ▸ kept]
      · simp [same]
    · rw [if_neg kept, ih]
      by_cases same : entry.1 = name
      · simp [same ▸ kept]
      · simp [same]

/-- If each value comes from a function, the entries are its values, name by name. -/
theorem exists_mapValues {f : α → β} {property : α → Prop} {entries : Mapping β}
    (each : ∀ entry ∈ entries, ∃ value, entry.2 = f value ∧ property value) :
    ∃ values : Mapping α, entries = mapValues f values ∧ ∀ entry ∈ values, property entry.2 := by
  induction entries with
  | nil => exact ⟨[], rfl, fun _ impossible => absurd impossible List.not_mem_nil⟩
  | cons entry rest ih =>
    obtain ⟨⟨value, same, holds⟩, later⟩ := List.forall_mem_cons.mp each
    obtain ⟨values, rfl, others⟩ := ih later
    exact ⟨(entry.1, value) :: values, by rw [mapValues_cons, ← same],
      List.forall_mem_cons.mpr ⟨holds, others⟩⟩

end Mson.Mapping
