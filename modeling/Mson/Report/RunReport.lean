import Mson.Report.Workbook
import Mson.Run.Outcome

/-!
# The report of a run

A workbook with one row for each payload and a second sheet that says what was run.
-/
namespace Mson.Report

/-- One payload in the report. -/
structure PayloadRow where
  label : String
  direction : String
  schemaStatus : String
  exampleStatus : String
  errors : List String
  deriving DecidableEq, Repr

structure RunInfo where
  startedAt : String
  inputPath : String
  outputPath : Option String
  knownTypes : Int
  cyclicTypes : List String
  deriving DecidableEq, Repr

def columns : List (String × String × Nat) :=
  [("A", "Payload", 60), ("B", "Direction", 12), ("C", "Schema", 12), ("D", "Example", 12),
    ("E", "Errors", 80)]

def PayloadRow.cells (row : PayloadRow) : Except IllegalCell (List Cell) :=
  [row.label, row.direction, row.schemaStatus, row.exampleStatus, "\n".intercalate row.errors].mapM
    Cell.ofText

def payloadSheet (rows : List PayloadRow) : Except IllegalCell Sheet := do
  let cells ← rows.mapM PayloadRow.cells
  return {
    title := "Payloads"
    rows := columns.map (fun column => .text column.2.1) :: cells
    widths := columns.map fun column => (column.1, column.2.2)
    freeze := some "A2"
    bold := columns.map fun column => column.1 ++ "1" }

def infoRow (name : String) (value : Except IllegalCell Cell) : Except IllegalCell (List Cell) := do
  return [.text name, ← value]

def infoSheet (rows : List PayloadRow) (info : RunInfo) : Except IllegalCell Sheet := do
  let failed := (rows.filter fun row => !row.errors.isEmpty).length
  let cells ← [infoRow "run_start" (Cell.ofText info.startedAt),
    infoRow "input_path" (Cell.ofText info.inputPath),
    infoRow "output_path" (Cell.ofOptional info.outputPath),
    infoRow "known_types" (pure (.number info.knownTypes)),
    infoRow "cyclic_types" (Cell.ofText (", ".intercalate info.cyclicTypes)),
    infoRow "payloads" (pure (.number rows.length)),
    infoRow "failed" (pure (.number failed))].mapM id
  return { title := "RunInfo", rows := cells, widths := [], freeze := none, bold := [] }

/-- The report of the given rows. -/
def workbook (rows : List PayloadRow) (info : RunInfo) : Except IllegalCell Workbook := do
  let payloads ← payloadSheet rows
  let run ← infoSheet rows info
  return [payloads, run]

def PayloadRow.ofPayload (payload : RenderedPayload) : PayloadRow where
  label := payload.label
  direction := payload.direction.name
  schemaStatus := payload.schema.source.name
  exampleStatus := payload.body.source.name
  errors := payload.errors.map PayloadError.message

/-- The report of a run that began at `startedAt`. -/
def ofOutcome (outcome : Outcome) (startedAt : String) : Except IllegalCell Workbook :=
  workbook (outcome.payloads.map PayloadRow.ofPayload)
    { startedAt, inputPath := outcome.inputPath, outputPath := outcome.outputPath
      knownTypes := outcome.knownTypes.length, cyclicTypes := outcome.cyclicTypes }

end Mson.Report
