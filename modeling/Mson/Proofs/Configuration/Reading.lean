import Mathlib.Data.List.DropRight
import Mson.Configuration.Reading
import Mson.Proofs.Computation

/-!
# Reading configurations

The bytes of a configuration file are answered with settings or with an error about the configuration,
except for the reasons that `Unreadable` lists (`answers_ofBytes_iff`): they are no text, a scalar denotes
nothing, a section is named by too long a number, or the indent is infinite. Settings that are read have
a positive indent and a schema dialect without blanks around it (`ofBytes_sound`).
-/
namespace Mson

/-! ## Stripped texts -/

namespace Text

/-- Whether a text has no blank at either end. -/
structure IsStripped (text : String) : Prop where
  first : ∀ c, text.toList.head? = some c → isBlank c = false
  last : ∀ c, text.toList.getLast? = some c → isBlank c = false

theorem isBlank_of_head?_dropWhile (text : List Char) {c : Char}
    (first : (text.dropWhile isBlank).head? = some c) : isBlank c = false := by
  have stops := List.head?_dropWhile_not isBlank text
  rwa [first] at stops

theorem isStripped_trim (text : String) : IsStripped (trim text) where
  first c first := by
    rw [trim, String.toList_ofList] at first
    -- What is kept of the text without its first blanks begins where that does.
    obtain ⟨dropped, whole⟩ := List.rdropWhile_prefix isBlank (text.toList.dropWhile isBlank)
    have kept : (text.toList.dropWhile isBlank).rdropWhile isBlank = trimChars text.toList := rfl
    refine isBlank_of_head?_dropWhile text.toList ?_
    rw [← whole, kept, List.head?_append, first]
    rfl
  last c last := by
    rw [trim, String.toList_ofList, trimChars, List.getLast?_reverse] at last
    exact isBlank_of_head?_dropWhile _ last

theorem trim_eq_empty_iff {text : String} : trim text = "" ↔ isBlankText text = true := by
  rw [trim, String.ofList_eq_empty_iff, isBlankText, List.all_eq_true, ← List.dropWhile_eq_nil_iff]
  constructor
  · intro nothing
    -- Blanks alone are left of the text without its first blanks, and none of them can be the first.
    have blanks := List.dropWhile_eq_nil_iff.mpr (List.rdropWhile_eq_nil_iff.mp nothing)
    rwa [List.dropWhile_idempotent] at blanks
  · intro blanks
    rw [trimChars, blanks]
    rfl

end Text

/-- An indent that is positive, and a schema dialect that is neither empty nor has blanks around it. -/
structure Settings.Sound (settings : Settings) : Prop where
  indented : 0 < settings.output.indent
  named : settings.output.schemaUri ≠ ""
  stripped : Text.IsStripped settings.output.schemaUri

namespace Configuration

open Yaml (Atom Contents NodeId)

variable {α β : Type}

/-! ## Answers -/

/-- Whether a reading comes to a value or to an error about the configuration. -/
def Answers (reading : Reading α) : Prop :=
  ∀ fault, reading = .error fault → ∃ error, fault = .invalid error

@[simp] theorem answers_ok (value : α) : Answers (.ok value) := nofun

@[simp] theorem answers_pure (value : α) : Answers (pure value) := nofun

@[simp] theorem answers_refuse (error : ConfigurationError) : Answers (refuse error : Reading α) := by
  rintro fault ⟨⟩
  exact ⟨error, rfl⟩

theorem not_answers {fault : ConfigurationFault} (other : ∀ error, fault ≠ .invalid error) :
    ¬ Answers (.error fault : Reading α) := by
  intro answers
  obtain ⟨error, same⟩ := answers fault rfl
  exact other error same

theorem answers_bind_iff {step : Reading α} {next : α → Reading β} :
    Answers (step >>= next) ↔ Answers step ∧ ∀ value, step = .ok value → Answers (next value) := by
  cases step with
  | error fault => simp [Answers, bind, Except.bind]
  | ok value => simp [bind, Except.bind]

theorem answers_readKey_iff {contents : Contents} {entries : Section} {name : String} {standard : α}
    {read : Yaml.Value → Reading α} :
    Answers (readKey contents entries name standard read) ↔
      ∀ node, entries.get? name = some node → Answers (read (contents.value node)) := by
  unfold readKey
  cases entries.get? name <;> simp

theorem answers_readSection {contents : Contents} {root : Section} {name : String} :
    Answers (readSection contents root name) := by
  unfold readSection
  split
  · exact answers_pure _
  · split
    · exact answers_pure _
    · exact answers_pure _
    · exact answers_refuse _

theorem answers_readInteger_iff {value : Yaml.Value} :
    Answers (readInteger value) ↔ ∀ negative, value ≠ .atom (.double (.infinity negative)) := by
  unfold readInteger
  split <;> simp_all [Answers]

theorem answers_readIndent_iff {value : Yaml.Value} :
    Answers (readIndent value) ↔ ∀ negative, value ≠ .atom (.double (.infinity negative)) := by
  rw [readIndent, answers_bind_iff, answers_readInteger_iff]
  refine and_iff_left fun found _ => ?_
  split
  · split
    · exact answers_pure _
    · exact answers_refuse _
  · exact answers_refuse _

theorem answers_readSchemaUri {value : Yaml.Value} : Answers (readSchemaUri value) := by
  unfold readSchemaUri
  split
  · split
    · exact answers_refuse _
    · exact answers_ok _
  · exact answers_refuse _

theorem answers_readSwitch {key : String} {value : Yaml.Value} : Answers (readSwitch key value) := by
  unfold readSwitch
  split
  · exact answers_ok _
  · exact answers_refuse _

theorem answers_readOutput_iff {contents : Contents} {entries : Section} :
    Answers (readOutput contents entries) ↔ ∀ node, entries.get? "indent" = some node →
      ∀ negative, contents.value node ≠ .atom (.double (.infinity negative)) := by
  rw [readOutput, answers_bind_iff, answers_readKey_iff]
  simp only [answers_readIndent_iff]
  refine and_iff_left fun indent _ => answers_bind_iff.mpr ⟨?_, fun _ _ => answers_pure _⟩
  exact answers_readKey_iff.mpr fun _ _ => answers_readSchemaUri

theorem answers_readRendering {contents : Contents} {entries : Section} :
    Answers (readRendering contents entries) := by
  have switches (key : String) : Answers (readKey contents entries key true (readSwitch key)) :=
    answers_readKey_iff.mpr fun _ _ => answers_readSwitch
  unfold readRendering
  simp only [answers_bind_iff, switches, answers_pure, true_and, implies_true]

/-- Whether a key is a number of more digits than can be shown. -/
def IsTooLong (key : Atom) : Prop :=
  ∃ value, key = .int value ∧ powerOf 10 Text.digitLimit ≤ value.natAbs

theorem exists_sectionText {key : Atom} (fits : ¬ IsTooLong key) :
    ∃ text, sectionText key = .ok text := by
  unfold sectionText
  split
  · rename_i value
    have below : ¬ powerOf 10 Text.digitLimit ≤ value.natAbs := fun long => fits ⟨value, rfl, long⟩
    exact ⟨_, if_neg below⟩
  · exact ⟨_, rfl⟩

theorem sectionText_of_isTooLong {key : Atom} (tooLong : IsTooLong key) :
    sectionText key = .error .sectionTooLong := by
  obtain ⟨value, rfl, long⟩ := tooLong
  simp only [sectionText, if_pos long]

theorem isKnown_of_isTooLong {key : Atom} (tooLong : IsTooLong key) : isKnown key = false := by
  obtain ⟨value, rfl, -⟩ := tooLong
  rfl

theorem answers_names_iff {keys : Section} :
    Answers (keys.mapM fun entry => sectionText entry.1) ↔ ∀ entry ∈ keys, ¬ IsTooLong entry.1 := by
  induction keys with
  | nil => simp
  | cons entry rest ih =>
    rw [List.mapM_cons, answers_bind_iff, List.forall_mem_cons]
    by_cases tooLong : IsTooLong entry.1
    · rw [sectionText_of_isTooLong tooLong]
      exact iff_of_false (fun answers => absurd answers.1 (not_answers nofun))
        fun fits => fits.1 tooLong
    · obtain ⟨text, shown⟩ := exists_sectionText tooLong
      have others : Answers (do return text :: (← rest.mapM fun entry => sectionText entry.1)) ↔
          ∀ entry ∈ rest, ¬ IsTooLong entry.1 := by
        rw [answers_bind_iff, ih]
        exact and_iff_left fun _ _ => answers_pure _
      simp only [shown, answers_ok, tooLong, not_false_eq_true, true_and, Except.ok.injEq,
        forall_eq', others]

/-- Whether the root of a configuration gives an indent, and which. -/
def GivesIndent (contents : Contents) (root : Section) (value : Yaml.Value) : Prop :=
  ∃ (section_ : NodeId) (entries : Section) (node : NodeId), root.get? "output" = some section_ ∧
    contents.value section_ = .mapping entries ∧ entries.get? "indent" = some node ∧
    contents.value node = value

theorem readSection_of_get? {contents : Contents} {root entries : Section} {name key : String}
    {node : NodeId} (success : readSection contents root name = .ok entries)
    (given : entries.get? key = some node) :
    ∃ section_, root.get? name = some section_ ∧ contents.value section_ = .mapping entries := by
  unfold readSection at success
  split at success
  · cases success
    cases given
  · rename_i section_ found
    split at success
    · rename_i mapping
      cases success
      exact ⟨section_, found, mapping⟩
    · cases success
      cases given
    · cases success

theorem answers_output_iff {contents : Contents} {root : Section} :
    Answers (readSection contents root "output" >>= readOutput contents) ↔
      ∀ negative, ¬ GivesIndent contents root (.atom (.double (.infinity negative))) := by
  simp only [answers_bind_iff, answers_readSection, true_and, answers_readOutput_iff]
  constructor
  · rintro finite negative ⟨section_, entries, node, found, mapping, given, infinite⟩
    have success : readSection contents root "output" = .ok entries := by
      simp only [readSection, found, mapping]
      rfl
    exact finite entries success node given negative infinite
  · intro finite entries success node given negative infinite
    obtain ⟨section_, found, mapping⟩ := readSection_of_get? success given
    exact finite negative ⟨section_, entries, node, found, mapping, given, infinite⟩

theorem readNames_isEmpty {keys : Section} {names : List String}
    (shown : (keys.mapM fun entry => sectionText entry.1) = .ok names) :
    names.isEmpty = keys.isEmpty := by
  have same := (mapM_eq_ok_iff_forall₂.mp shown).length_eq
  cases keys <;> cases names <;> simp_all

theorem answers_readRoot_iff {contents : Contents} {root : Section} :
    Answers (readRoot contents root) ↔ (∀ entry ∈ root, ¬ IsTooLong entry.1) ∧
      ((∀ entry ∈ root, isKnown entry.1 = true) →
        ∀ negative, ¬ GivesIndent contents root (.atom (.double (.infinity negative)))) := by
  -- A name that is too long is that of an unknown section, so the known ones need not be looked at.
  have unknown : (∀ entry ∈ root.filter fun entry => !isKnown entry.1, ¬ IsTooLong entry.1) ↔
      ∀ entry ∈ root, ¬ IsTooLong entry.1 := by
    simp only [List.mem_filter, Bool.not_eq_true', and_imp]
    exact ⟨fun fits entry member tooLong =>
      fits entry member (isKnown_of_isTooLong tooLong) tooLong, fun fits entry member _ =>
      fits entry member⟩
  have known : (root.filter fun entry => !isKnown entry.1).isEmpty = true ↔
      ∀ entry ∈ root, isKnown entry.1 = true := by
    simp [List.isEmpty_iff, List.filter_eq_nil_iff]
  rw [← unknown, ← known, ← answers_output_iff, readRoot, answers_bind_iff, answers_names_iff]
  refine and_congr_right fun fits => ?_
  obtain ⟨names, shown⟩ := exists_mapM_eq_ok fun entry member => exists_sectionText (fits entry member)
  simp only [shown, Except.ok.injEq, forall_eq', readNames_isEmpty shown]
  cases (root.filter fun entry => !isKnown entry.1).isEmpty with
  | false =>
    -- Unknown sections are refused, whatever comes after them.
    refine iff_of_true (answers_bind_iff.mpr ⟨answers_refuse _, ?_⟩) ?_
    · rintro _ ⟨⟩
    · rintro ⟨⟩
  | true =>
    simp only [answers_bind_iff, answers_readSection, answers_readRendering, answers_pure, if_true,
      true_imp_iff, implies_true, and_true, true_and]

/-- What keeps a text from being answered with settings or with an error about the configuration. -/
inductive Unanswered (text : List Char) : Prop
  /-- A scalar, or a number in an escape, denotes nothing. -/
  | scalar {fault : Yaml.Fault} (unread : Yaml.read? text = .error fault)
      (wellFormed : fault.isMalformed = false) : Unanswered text
  /-- A section is named by a number that is too long to be shown. -/
  | longName {contents : Contents} {root : Section} {entry : Atom × NodeId}
      (read : Yaml.read? text = .ok (some contents))
      (isRoot : contents.value contents.root = .mapping root) (listed : entry ∈ root)
      (tooLong : IsTooLong entry.1) : Unanswered text
  /-- The indent is infinite, and no section is unknown. -/
  | infiniteIndent {contents : Contents} {root : Section} {negative : Bool}
      (read : Yaml.read? text = .ok (some contents))
      (isRoot : contents.value contents.root = .mapping root)
      (known : ∀ entry ∈ root, isKnown entry.1 = true)
      (infinite : GivesIndent contents root (.atom (.double (.infinity negative)))) :
      Unanswered text

theorem answers_ofFault_iff {fault : Yaml.Fault} :
    Answers (.error (ofFault fault) : Reading α) ↔ fault.isMalformed = true := by
  unfold ofFault
  split
  · rename_i malformed
    exact iff_of_true (answers_refuse _) malformed
  · rename_i wellFormed
    exact iff_of_false (not_answers nofun) wellFormed

theorem unanswered_iff_of_error {text : List Char} {fault : Yaml.Fault}
    (unread : Yaml.read? text = .error fault) : Unanswered text ↔ fault.isMalformed = false := by
  constructor
  · rintro (⟨same, wellFormed⟩ | ⟨read, _, _, _⟩ | ⟨read, _, _, _⟩)
    · cases unread.symm.trans same
      exact wellFormed
    · cases unread.symm.trans read
    · cases unread.symm.trans read
  · exact .scalar unread

theorem not_unanswered_of_noMapping {text : List Char} {contents? : Option Contents}
    (read : Yaml.read? text = .ok contents?)
    (noMapping : ∀ contents root, contents? = some contents →
      contents.value contents.root ≠ .mapping root) : ¬ Unanswered text := by
  rintro (⟨unread, _⟩ | ⟨same, isRoot, _, _⟩ | ⟨same, isRoot, _, _⟩)
  · cases read.symm.trans unread
  · cases read.symm.trans same
    exact noMapping _ _ rfl isRoot
  · cases read.symm.trans same
    exact noMapping _ _ rfl isRoot

theorem unanswered_iff_of_mapping {text : List Char} {contents : Contents} {root : Section}
    (read : Yaml.read? text = .ok (some contents))
    (isRoot : contents.value contents.root = .mapping root) :
    Unanswered text ↔ (∃ entry ∈ root, IsTooLong entry.1) ∨
      (∀ entry ∈ root, isKnown entry.1 = true) ∧
        ∃ negative, GivesIndent contents root (.atom (.double (.infinity negative))) := by
  constructor
  · rintro (⟨unread, _⟩ | ⟨same, alike, listed, tooLong⟩ | ⟨same, alike, known, infinite⟩)
    · cases read.symm.trans unread
    · cases read.symm.trans same
      cases isRoot.symm.trans alike
      exact .inl ⟨_, listed, tooLong⟩
    · cases read.symm.trans same
      cases isRoot.symm.trans alike
      exact .inr ⟨known, _, infinite⟩
  · rintro (⟨entry, listed, tooLong⟩ | ⟨known, negative, infinite⟩)
    · exact .longName read isRoot listed tooLong
    · exact .infiniteIndent read isRoot known infinite

/-- A text is answered unless there is one of the reasons against it. -/
theorem answers_ofText_iff {text : List Char} : Answers (ofText text) ↔ ¬ Unanswered text := by
  cases read : Yaml.read? text with
  | error fault =>
    rw [unanswered_iff_of_error read, Bool.not_eq_false, ofText, read]
    exact answers_ofFault_iff
  | ok contents? =>
    cases contents? with
    | none =>
      rw [ofText, read]
      exact iff_of_true (answers_pure _) (not_unanswered_of_noMapping read nofun)
    | some contents =>
      simp only [ofText, read, Except.mapError, bind, Except.bind]
      split
      · rename_i root isRoot
        rw [answers_readRoot_iff, unanswered_iff_of_mapping read isRoot]
        simp only [not_or, not_exists, not_and]
      · rename_i isNull
        refine iff_of_true (answers_pure _) (not_unanswered_of_noMapping read ?_)
        rintro _ root ⟨⟩ isRoot
        cases isNull.symm.trans isRoot
      · rename_i noMapping _
        refine iff_of_true (answers_refuse _) (not_unanswered_of_noMapping read ?_)
        rintro _ root ⟨⟩ isRoot
        exact noMapping root isRoot

/-- What keeps the bytes of a file from being answered. -/
inductive Unreadable (bytes : List UInt8) : Prop
  | undecodable {fault : Text.Utf8.Fault} (noText : Text.Utf8.decode bytes = .error fault) :
      Unreadable bytes
  | text {text : List Char} (decoded : Text.Utf8.decode bytes = .ok text)
      (unanswered : Unanswered (Text.unifyNewlines text)) : Unreadable bytes

theorem answers_ofBytes_iff {bytes : List UInt8} : Answers (ofBytes bytes) ↔ ¬ Unreadable bytes := by
  unfold ofBytes
  cases decoded : Text.Utf8.decode bytes with
  | error fault => exact iff_of_false (not_answers nofun) (not_not_intro (.undecodable decoded))
  | ok text =>
    have outcome : Answers (ofText (Text.unifyNewlines text)) ↔ ¬ Unreadable bytes := by
      rw [answers_ofText_iff]
      refine not_congr ⟨.text decoded, ?_⟩
      rintro (noText | ⟨same, unanswered⟩)
      · cases decoded.symm.trans noText
      · cases decoded.symm.trans same
        exact unanswered
    exact outcome

/-! ## Sound settings -/

theorem property_of_readKey (property : α → Prop) {contents : Contents} {entries : Section}
    {name : String} {standard value : α} {read : Yaml.Value → Reading α}
    (success : readKey contents entries name standard read = .ok value) (ofStandard : property standard)
    (ofValue : ∀ written value, read written = .ok value → property value) : property value := by
  unfold readKey at success
  split at success
  · cases success
    exact ofStandard
  · exact ofValue _ _ success

theorem readIndent_pos {value : Yaml.Value} {indent : Nat} (success : readIndent value = .ok indent) :
    0 < indent := by
  obtain ⟨found, -, success⟩ := bind_eq_ok_iff.mp success
  split at success
  · split at success
    · rename_i positive
      cases success
      omega
    · cases success
  · cases success

theorem readSchemaUri_stripped {value : Yaml.Value} {uri : String}
    (success : readSchemaUri value = .ok uri) : uri ≠ "" ∧ Text.IsStripped uri := by
  unfold readSchemaUri at success
  split at success
  · split at success
    · cases success
    · rename_i text shows_
      cases success
      exact ⟨mt Text.trim_eq_empty_iff.mp shows_, Text.isStripped_trim text⟩
  · cases success

theorem draft04_stripped : draft04 ≠ "" ∧ Text.IsStripped draft04 := by
  refine ⟨by decide, fun c first => ?_, fun c last => ?_⟩
  · cases first
    rfl
  · cases last
    rfl

theorem sound_default : Settings.Sound {} := ⟨Nat.two_pos, draft04_stripped.1, draft04_stripped.2⟩

theorem readOutput_sound {contents : Contents} {entries : Section} {output : OutputSettings}
    (success : readOutput contents entries = .ok output) (rendering : RenderingSettings) :
    Settings.Sound { output, rendering } := by
  obtain ⟨indent, indented, success⟩ := bind_eq_ok_iff.mp success
  obtain ⟨uri, given, rfl⟩ := map_eq_ok_iff.mp success
  have stripped : uri ≠ "" ∧ Text.IsStripped uri :=
    property_of_readKey (fun uri => uri ≠ "" ∧ Text.IsStripped uri) given
      draft04_stripped fun _ _ => readSchemaUri_stripped
  exact ⟨property_of_readKey (0 < ·) indented Nat.two_pos fun _ _ => readIndent_pos, stripped.1, stripped.2⟩

theorem readRoot_sound {contents : Contents} {root : Section} {settings : Settings}
    (success : readRoot contents root = .ok settings) : settings.Sound := by
  obtain ⟨names, -, success⟩ := bind_eq_ok_iff.mp success
  simp only at success
  split at success
  · obtain ⟨outputEntries, -, success⟩ := bind_eq_ok_iff.mp success
    obtain ⟨output, read, success⟩ := bind_eq_ok_iff.mp success
    obtain ⟨renderingEntries, -, success⟩ := bind_eq_ok_iff.mp success
    obtain ⟨rendering, -, rfl⟩ := map_eq_ok_iff.mp success
    exact readOutput_sound read rendering
  · cases success

theorem ofText_sound {text : List Char} {settings : Settings}
    (success : ofText text = .ok settings) : settings.Sound := by
  obtain ⟨contents?, -, success⟩ := bind_eq_ok_iff.mp success
  split at success
  · cases success
    exact sound_default
  · split at success
    · exact readRoot_sound success
    · cases success
      exact sound_default
    · cases success

theorem ofBytes_sound {bytes : List UInt8} {settings : Settings}
    (success : ofBytes bytes = .ok settings) : settings.Sound := by
  obtain ⟨text, -, success⟩ := bind_eq_ok_iff.mp success
  exact ofText_sound success

end Configuration

end Mson
