import Mson.Text.Newline

/-!
# Workbooks

A workbook is a list of sheets, a sheet a table of cells with the width of its columns, the cell
at which its scrolling part begins, and the addresses of its bold cells. A cell cannot hold
control characters other than tabs and line ends, nor more than a fixed number of characters.
-/
namespace Mson.Report

inductive Cell where
  | blank
  | text (value : String)
  | number (value : Int)
  deriving DecidableEq, Repr

structure Sheet where
  title : String
  rows : List (List Cell)
  /-- Widths by column letter. -/
  widths : List (String × Nat)
  freeze : Option String
  bold : List String
  deriving DecidableEq, Repr

abbrev Workbook := List Sheet

/-- A text that no cell can hold. -/
structure IllegalCell where
  text : String
  deriving DecidableEq, Repr

def IllegalCell.message (cell : IllegalCell) : String :=
  cell.text ++ " cannot be used in worksheets."

/-- Cells hold no more characters than this. -/
def cellLimit : Nat := 32767

def isIllegal (c : Char) : Bool :=
  c.toNat < 0x20 && c != '\t' && c != '\n' && c != '\r'

/-- The cell of a text. What is too long is cut off, line ends are unified, and no text is left
blank. -/
def Cell.ofText (text : String) : Except IllegalCell Cell :=
  let kept := text.toList.take cellLimit
  if kept.any isIllegal then .error ⟨String.ofList kept⟩
  else if kept.isEmpty then .ok .blank
  else .ok (.text (String.ofList (Text.unifyNewlines kept)))

def Cell.ofOptional : Option String → Except IllegalCell Cell
  | some value => ofText value
  | none => .ok .blank

end Mson.Report
