import Mson.Command.Execution
import Mson.Report.Spreadsheet
import Mson.Time.Moment
import Std.Time.DateTime.Timestamp

/-!
# The program

Runs a command with the files of the disk, and says at the end what the command has to say.
-/
namespace Mson.Program

open File

/-- The cause of a fault that the operating system reports. -/
def causeOf : IO.Error → FaultCause
  | .noFileOrDirectory .. => .missing
  | .alreadyExists .. => .exists_
  | .inappropriateType _ code _ =>
      if code.toNat = FaultCause.notAFolder.number then .notAFolder else .isAFolder
  | error => .other 5 (toString error)

def attempt (path : String) (step : IO α) : IO (Except FileFault α) := do
  match ← step.toBaseIO with
  | .ok value => return .ok value
  | .error error => return .error ⟨causeOf error, path⟩

/-- Whether a step succeeds. -/
def succeeds (step : IO α) : IO Bool := do
  match ← step.toBaseIO with
  | .ok _ => return true
  | .error _ => return false

def writeBytes (path : String) (bytes : ByteArray) : IO (Except FileFault Unit) :=
  attempt path (IO.FS.writeBinFile path bytes)

/-- Access to the files of the disk. -/
def diskFiles : FileAccess IO where
  exists_ path := return .ok (← succeeds (IO.FS.realPath path))
  readBytes path := attempt path do return (← IO.FS.readBinFile path).toList
  makeFolder path := attempt path (IO.FS.createDir path)
  isFolder path := succeeds (IO.FS.realPath (path ++ "/."))
  writeText path text := writeBytes path text.toUTF8
  writeWorkbook path workbook := writeBytes path ⟨(Report.Spreadsheet.bytes workbook).toArray⟩
  resolve path := return (← IO.FS.realPath path).toString

/-- The present time. -/
def now : IO String := do
  let time ← Std.Time.Timestamp.now
  return (Time.Moment.ofUnix (time.toNanosecondsSinceUnixEpoch.val / 1000).toNat).toIso

end Mson.Program

def main (arguments : List String) : IO UInt32 := do
  let answer ← Mson.Command.run Mson.Program.diskFiles (← Mson.Program.now) arguments
  let output ← IO.getStdout
  output.putStr (answer.outputText (← output.isTty))
  let errors ← IO.getStderr
  errors.putStr (answer.errorText (← errors.isTty))
  match answer.ending with
  | .exit code => return UInt32.ofNat code
  | .abort fault =>
      errors.putStrLn fault.message
      return 1
