import Mson.Command.Invocation
import Mson.Configuration.Reading
import Mson.File.Access
import Mson.Report.RunReport
import Mson.Run.NamedType
import Mson.Run.Outcome
import Mson.Text.TerminalCode

/-!
# Executing commands

A command reads its files, renders, writes what it is asked to and says what it did. Faults that it
accounts for are said in one line and end it with code 1; all others abort it.
-/
namespace Mson.Command

open File (FileAccess FileFault)

inductive CommandFault where
  | scaffoldExists (path : String)
  | scaffoldNotWritten (fault : FileFault)
  | configuration (fault : Configuration.ConfigurationFault)
  | description (error : DescriptionError)
  | namedType (error : NamedTypeError)
  | documentNotWritten (fault : FileFault)
  | reportNotWritten (fault : FileFault)
  /-- A rendered type holds elements, so it has no JSON text. -/
  | notJson
  | run (fault : RunFault)
  /-- A text does not fit into the report. -/
  | cellNotWritten (cell : Report.IllegalCell)
  /-- A file cannot be looked at or read. -/
  | file (fault : FileFault)
  | arguments (error : InvocationError)
  deriving DecidableEq, Repr

/-- Whether the command accounts for a fault. -/
def CommandFault.isReported : CommandFault → Bool
  | .scaffoldExists _ | .scaffoldNotWritten _ | .documentNotWritten _ | .reportNotWritten _ => true
  | .configuration (.invalid _) => true
  | .description (.numberTooLong _) => false
  | .description _ => true
  | .namedType (.rendering _) => false
  | .namedType _ => true
  | _ => false

def CommandFault.message : CommandFault → String
  | .scaffoldExists path => "Configuration file already exists: " ++ path
  | .scaffoldNotWritten fault => fault.message
  | .configuration fault => fault.message
  | .description error => error.message
  | .namedType error => error.message
  | .documentNotWritten fault => "Failed to write result document: " ++ fault.message
  | .reportNotWritten fault => "Failed to write render report: " ++ fault.message
  | .notJson => "A rendered value has no JSON text."
  | .run _ => "The run failed."
  | .cellNotWritten cell => cell.message
  | .file fault => fault.message
  | .arguments error => error.text

/-- What a command has said so far. -/
structure Transcript where
  output : String := ""
  notices : List Notice := []
  /-- The last line for the user, apart from the output. -/
  remark : String := ""
  deriving Inhabited

variable {m : Type → Type} [Monad m]

/-- A command that says something and may fail. -/
abbrev Procedure (m : Type → Type) := ExceptT CommandFault (StateT Transcript m)

namespace Procedure

/-- Lifts an access to files. -/
def access (step : m (Except FileFault α)) (fault : FileFault → CommandFault) : Procedure m α := do
  match ← (liftM step : Procedure m (Except FileFault α)) with
  | .ok value => return value
  | .error found => throw (fault found)

def ofExcept (result : Except ε α) (fault : ε → CommandFault) : Procedure m α :=
  match result with
  | .ok value => return value
  | .error found => throw (fault found)

def say (text : String) : Procedure m Unit :=
  modify fun transcript => { transcript with output := transcript.output ++ text }

def notice (notices : List Notice) : Procedure m Unit :=
  modify fun transcript => { transcript with notices := transcript.notices ++ notices }

def remark (text : String) : Procedure m Unit :=
  modify fun transcript => { transcript with remark := transcript.remark ++ text }

end Procedure

open Procedure

/-! ## Reading -/

/-- The settings of a configuration file, or the defaults if none is named. -/
def readSettings (files : FileAccess m) (config : Option String) : Procedure m Settings := do
  match config with
  | none => return {}
  | some path =>
      let path := File.normalize path
      if ← access (files.exists_ path) .file then
        let bytes ← access (files.readBytes path) .file
        ofExcept (Configuration.ofBytes bytes) .configuration
      else throw (.configuration (.invalid (.fileMissing path)))

def readDescription (files : FileAccess m) (input : String) : Procedure m Description := do
  let path := File.normalize input
  if ← access (files.exists_ path) .file then
    let bytes ← access (files.readBytes path) fun fault => .description (.unreadable fault.message)
    ofExcept (Description.ofBytes bytes) .description
  else throw (.description (.fileMissing path))

/-- The types that a description declares. -/
def readTypes (files : FileAccess m) (input : String) : Procedure m SymbolTable := do
  let description ← readDescription files input
  let declared := declarations (.object description)
  notice declared.notices
  return declared.types

/-! ## Commands -/

def generateConfig (files : FileAccess m) (output : String) : Procedure m Unit := do
  let path := File.normalize output
  if ← access (files.exists_ path) .scaffoldNotWritten then
    throw (.scaffoldExists (← files.resolve path))
  access (files.writeText path Configuration.scaffold) .scaffoldNotWritten
  say ((← files.resolve path) ++ "\n")

def listTypes (files : FileAccess m) (input : String) : Procedure m Unit := do
  say (unlines (Mapping.names (← readTypes files input)))

/-- What a command asks for by a path: an empty one asks for nothing. -/
def asked (path : Option String) : Option String := path.filter fun path => path ≠ ""

def writeDocument (files : FileAccess m) (path text : String) : Procedure m Unit := do
  access (files.ensureParent path) .documentNotWritten
  access (files.writeText path text) .documentNotWritten

def writeReport (files : FileAccess m) (path : String) (outcome : Outcome) (startedAt : String) :
    Procedure m Unit := do
  let workbook ← ofExcept (Report.ofOutcome outcome startedAt) .cellNotWritten
  access (files.ensureParent path) .reportNotWritten
  access (files.writeWorkbook path workbook) .reportNotWritten

/-- Renders all payloads; the document is said unless there is a file for it. -/
def render (files : FileAccess m) (startedAt input : String)
    (config output report : Option String) : Procedure m Unit := do
  let settings ← readSettings files config
  let description ← readDescription files input
  let outputPath := (asked output).map File.normalize
  let result := runDescription description settings (File.normalize input) outputPath
  notice result.notices
  let outcome ← ofExcept result.outcome .run
  let document := outcome.document startedAt settings.output.indent
  if let some path := outputPath then writeDocument files path document
  if let some path := asked report then writeReport files (File.normalize path) outcome startedAt
  match outputPath with
  | some path => say ((← files.resolve path) ++ "\n")
  | none => say document
  if 0 < outcome.failedCount then
    remark s!"{outcome.failedCount} payload(s) could not be rendered.\n"

/-- The part of a rendered type that is asked for, or both. -/
def partOf (found : NamedType) : Option Part → Value
  | some .schema => .object found.schema
  | some .example_ => found.example_
  | none => .object [("schema", .object found.schema), ("example", found.example_)]

def renderType (files : FileAccess m) (input name : String) (config : Option String)
    (only : Option Part) : Procedure m Unit := do
  let settings ← readSettings files config
  let types ← readTypes files input
  let found ← ofExcept (renderNamedType types name settings) .namedType
  match (partOf found only).toJson? with
  | some json => say (prettyText settings.output.indent json ++ "\n")
  | none => throw .notJson

def execute (files : FileAccess m) (startedAt : String) : Request → Procedure m Unit
  | .generateConfig output => generateConfig files output
  | .listTypes input => listTypes files input
  | .render input config output report => render files startedAt input config output report
  | .renderType input name config only => renderType files input name config only

/-! ## Whole runs of the program -/

/-- How the program ends. -/
inductive Ending where
  | exit (code : Nat)
  | abort (fault : CommandFault)
  deriving DecidableEq, Repr

/-- What a whole run has said. -/
structure Answer where
  ending : Ending
  output : String
  /-- The notices of the run, if they are shown. -/
  log : String
  /-- What is said to the user apart from the output. -/
  remark : String

namespace Answer

/-- A text for the user. Only a terminal is sent the codes that it holds. -/
def shown (terminal : Bool) (text : String) : String :=
  if terminal then text else Text.withoutTerminalCodes text

def outputText (terminal : Bool) (answer : Answer) : String := shown terminal answer.output

/-- The notices, which are shown with whatever they hold, and then the remark. -/
def errorText (terminal : Bool) (answer : Answer) : String :=
  answer.log ++ shown terminal answer.remark

end Answer

def noticeText (notice : Notice) : String :=
  notice.level.name ++ " " ++ notice.logger ++ ": " ++ notice.message ++ "\n"

/-- The answer of a command that has come to its end. Notices are shown if they are asked for. -/
def answerOf (verbose : Bool) (result : Except CommandFault Unit) (transcript : Transcript) :
    Answer :=
  let log := if verbose then String.join (transcript.notices.map noticeText) else ""
  match result with
  | .ok () => ⟨.exit 0, transcript.output, log, transcript.remark⟩
  | .error fault =>
      if fault.isReported then ⟨.exit 1, transcript.output, log, fault.message ++ "\n"⟩
      else ⟨.abort fault, transcript.output, log, ""⟩

/-- Runs the program; `startedAt` is the time that its documents show. -/
def run (files : FileAccess m) (startedAt : String) (arguments : List String) : m Answer := do
  match Invocation.ofArguments arguments with
  | .error error =>
      if error.isReported then return ⟨.exit 2, "", "", error.text⟩
      else return ⟨.abort (.arguments error), "", "", ""⟩
  | .ok (.help topic) => return ⟨.exit 0, helpPage topic, "", ""⟩
  | .ok .version => return ⟨.exit 0, programName ++ ", version " ++ version ++ "\n", "", ""⟩
  | .ok (.run verbose request) => do
      let (result, transcript) ← ((execute files startedAt request).run).run {}
      return answerOf verbose result transcript

end Mson.Command
