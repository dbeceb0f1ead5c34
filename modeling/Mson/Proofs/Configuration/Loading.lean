import Mson.Command.Execution
import Mson.File.Store
import Mson.Proofs.Configuration.Reading

/-!
# Loading configurations

A configuration is loaded from a path. Loading changes neither files nor what has been said
(`outcome_readSettings`). It gives settings that the program can work with or an error about the
configuration, except for the reasons that `PathEscapes` lists (`configuration_answered`).
-/
namespace Mson

namespace Command.Procedure

variable {σ α β : Type} {transcript : Transcript} {state : σ}

/-- What comes of a procedure that is run in a state. -/
def outcome (procedure : Procedure (StateM σ) α) (transcript : Transcript) (state : σ) :
    (Except CommandFault α × Transcript) × σ :=
  (procedure.run.run transcript).run state

theorem outcome_bind (procedure : Procedure (StateM σ) α) (next : α → Procedure (StateM σ) β) :
    outcome (procedure >>= next) transcript state =
      match procedure.outcome transcript state with
      | ((.ok value, later), after) => (next value).outcome later after
      | ((.error fault, later), after) => ((.error fault, later), after) := by
  change (match procedure.outcome transcript state with
    | ((result, later), after) => ((ExceptT.bindCont next result).run later).run after) = _
  rcases procedure.outcome transcript state with ⟨⟨value | fault, later⟩, after⟩ <;> rfl

theorem outcome_access (step : StateM σ (Except File.FileFault α))
    (fault : File.FileFault → CommandFault) :
    (access step fault).outcome transcript state =
      (((step.run state).1.mapError fault, transcript), (step.run state).2) := by
  have lifted : (liftM step : Procedure (StateM σ) (Except File.FileFault α)).outcome transcript state =
      ((.ok (step.run state).1, transcript), (step.run state).2) := rfl
  rw [access, outcome_bind, lifted]
  cases (step.run state).1 <;> rfl

theorem outcome_ofExcept {ε : Type} (result : Except ε α) (fault : ε → CommandFault) :
    (ofExcept result fault).outcome transcript state = ((result.mapError fault, transcript), state) := by
  cases result <;> rfl

end Command.Procedure

namespace Configuration

open File (Store)

/-! ## Paths -/

/-- What a path of a configuration leads to. -/
def loadPath (store : Store) (path : String) : Except Command.CommandFault Settings :=
  match store.exists_ path with
  | .error cause => .error (.file ⟨cause, path⟩)
  | .ok false => .error (.configuration (.invalid (.fileMissing path)))
  | .ok true =>
      match store.readBytes path with
      | .error cause => .error (.file ⟨cause, path⟩)
      | .ok bytes => (ofBytes bytes).mapError .configuration

theorem outcome_readSettings (store : Store) (transcript : Command.Transcript) (path : String) :
    (Command.readSettings Store.files (some path)).outcome transcript store =
      ((loadPath store (File.normalize path), transcript), store) := by
  have looked : (Store.files.exists_ (File.normalize path)).run store =
      (Store.faultAt (File.normalize path) (store.exists_ (File.normalize path)), store) := rfl
  have read : (Store.files.readBytes (File.normalize path)).run store =
      (Store.faultAt (File.normalize path) (store.readBytes (File.normalize path)), store) := rfl
  unfold loadPath
  simp only [Command.readSettings, Command.Procedure.outcome_bind, Command.Procedure.outcome_access,
    looked]
  cases store.exists_ (File.normalize path) with
  | error cause => rfl
  | ok there =>
    cases there with
    | false => rfl
    | true =>
      simp only [Store.faultAt, Except.mapError, if_true, Command.Procedure.outcome_bind,
        Command.Procedure.outcome_access, read]
      cases store.readBytes (File.normalize path) with
      | error cause => rfl
      | ok bytes => exact Command.Procedure.outcome_ofExcept _ _

/-- What keeps a path from being answered with settings or with an error about the configuration. -/
inductive PathEscapes (store : Store) (path : String) : Prop
  | nameTooLong (refused : store.locate path = .error .nameTooLong) : PathEscapes store path
  | folder {place : File.Place} (located : store.locate path = .ok place)
      (isFolder : store.isFolderAt place = true) (noFile : store.contentAt place = none) :
      PathEscapes store path
  | unreadable {bytes : List UInt8} (read : store.readBytes path = .ok bytes)
      (unreadable : Unreadable bytes) : PathEscapes store path

/-- Whether loading comes to settings or to an error about the configuration. -/
def Answered (outcome : Except Command.CommandFault Settings) : Prop :=
  (∃ settings, outcome = .ok settings) ∨ ∃ error, outcome = .error (.configuration (.invalid error))

theorem answered_mapError_iff {reading : Reading Settings} :
    Answered (reading.mapError .configuration) ↔ Answers reading := by
  cases reading <;> simp [Answered, Answers, Except.mapError]

theorem not_answered_of_file {fault : File.FileFault} : ¬ Answered (.error (.file fault)) := by
  simp [Answered]

section Path

variable {store : Store} {path : String}

theorem answered_of_missing (missing : store.exists_ path = .ok false) :
    Answered (loadPath store path) := by
  simp only [loadPath, missing]
  exact .inr ⟨_, rfl⟩

theorem not_answered_of_fault {cause : File.FaultCause} (there : store.exists_ path = .ok true)
    (unread : store.readBytes path = .error cause) : ¬ Answered (loadPath store path) := by
  simp only [loadPath, there, unread]
  exact not_answered_of_file

theorem answered_iff_of_readBytes {bytes : List UInt8} (there : store.exists_ path = .ok true)
    (read : store.readBytes path = .ok bytes) :
    Answered (loadPath store path) ↔ ¬ Unreadable bytes := by
  simp only [loadPath, there, read]
  rw [answered_mapError_iff, answers_ofBytes_iff]

/-- A path that does not lead to a place is one of a missing file, unless it is too long. -/
theorem answered_iff_of_error {cause : File.FaultCause} (located : store.locate path = .error cause) :
    Answered (loadPath store path) ↔ ¬ PathEscapes store path := by
  have noPlace : PathEscapes store path ↔ cause = .nameTooLong := by
    constructor
    · rintro (refused | ⟨other, _, _⟩ | ⟨read, _⟩)
      · cases located.symm.trans refused
        rfl
      · cases located.symm.trans other
      · rw [Store.readBytes, located] at read
        cases read
    · rintro rfl
      exact .nameTooLong located
  rw [noPlace]
  by_cases tooLong : cause = .nameTooLong
  · subst tooLong
    simp only [loadPath, Store.exists_, located]
    exact iff_of_false not_answered_of_file (not_not_intro trivial)
  · refine iff_of_true (answered_of_missing ?_) tooLong
    simp only [Store.exists_, located]

/-- A path that leads to a place is answered by the file there, and by a missing file if there is
nothing; a folder is no answer. -/
theorem answered_iff_of_ok {place : File.Place} (located : store.locate path = .ok place) :
    Answered (loadPath store path) ↔ ¬ PathEscapes store path := by
  have looked : store.exists_ path = .ok (store.isThere place) := by
    simp only [Store.exists_, located]
  cases content : store.contentAt place with
  | some held =>
    have there : store.isThere place = true := by simp [Store.isThere, Store.isFileAt, content]
    obtain ⟨bytes, read⟩ : ∃ bytes, store.readBytes path = .ok bytes := by
      rw [Store.readBytes, located]
      simp only [bind, Except.bind, content]
      cases held <;> exact ⟨_, rfl⟩
    rw [answered_iff_of_readBytes (there ▸ looked) read]
    refine not_congr ⟨.unreadable read, ?_⟩
    rintro (refused | ⟨other, _, noFile⟩ | ⟨same, unreadable⟩)
    · cases located.symm.trans refused
    · cases located.symm.trans other
      cases content.symm.trans noFile
    · cases read.symm.trans same
      exact unreadable
  | none =>
    have unread : store.readBytes path =
        .error (if store.isFolderAt place then .isAFolder else .missing) := by
      rw [Store.readBytes, located]
      simp only [bind, Except.bind, content]
      rfl
    by_cases isFolder : store.isFolderAt place = true
    · have there : store.isThere place = true := by simp [Store.isThere, isFolder]
      exact iff_of_false (not_answered_of_fault (there ▸ looked) unread)
        (not_not_intro (.folder located isFolder content))
    · have missing : store.isThere place = false := by
        simp [Store.isThere, Store.isFileAt, content, isFolder]
      refine iff_of_true (answered_of_missing (missing ▸ looked)) ?_
      rintro (refused | ⟨other, folder, _⟩ | ⟨read, _⟩)
      · cases located.symm.trans refused
      · cases located.symm.trans other
        exact isFolder folder
      · cases unread.symm.trans read

theorem answered_loadPath_iff (store : Store) (path : String) :
    Answered (loadPath store path) ↔ ¬ PathEscapes store path := by
  cases located : store.locate path with
  | error cause => exact answered_iff_of_error located
  | ok place => exact answered_iff_of_ok located

end Path

/-! ## Loading -/

/-- What comes of loading a configuration; without a path it is the default one. -/
def load (store : Store) (config : Option String) : Except Command.CommandFault Settings :=
  ((Command.readSettings Store.files config).outcome {} store).1.1

theorem load_none (store : Store) : load store none = .ok {} := rfl

theorem load_some (store : Store) (path : String) :
    load store (some path) = loadPath store (File.normalize path) := by
  rw [load, outcome_readSettings]

theorem loadPath_sound {store : Store} {path : String} {settings : Settings}
    (success : loadPath store path = .ok settings) : settings.Sound := by
  unfold loadPath at success
  split at success
  · cases success
  · cases success
  · split at success
    · cases success
    · exact ofBytes_sound (mapError_eq_ok_iff.mp success)

namespace OneFile

/-! A folder with one file, `config.yaml`. -/

def store (text : String) : Store :=
  ⟨"/work", [], [(["config.yaml"], .bytes (text.toList.map fun c => c.toNat.toUInt8))]⟩

end OneFile

end Configuration

end Mson
