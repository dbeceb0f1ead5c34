import Mson.File.Archive
import Mson.Report.Markup
import Mson.Report.Workbook

/-!
# Spreadsheets

The file of a workbook: an archive of documents, one for each sheet and some that say what the
others are. Texts stand in their cells; the second of two cell styles is bold.
-/
namespace Mson.Report.Spreadsheet

open Markup

/-- The name of a vocabulary. -/
def vocabulary (parts : List String) : String :=
  "http:" ++ "//" ++ "/".intercalate ("schemas.openxmlformats.org" :: parts)

def sheetVocabulary : String := vocabulary ["spreadsheetml", "2006", "main"]

/-- The vocabulary of relations, or the kind of a relation. -/
def relation (kind : List String) : String :=
  vocabulary (["officeDocument", "2006", "relationships"] ++ kind)

def contentType (kind : String) : String :=
  "application/vnd.openxmlformats-officedocument.spreadsheetml." ++ kind ++ "+xml"

/-! ## Sheets -/

/-- The letter of a column. -/
def columnLetter (column : Nat) : String := String.singleton (Char.ofNat ('A'.toNat + column))

def cellMarkup (bold : List String) (address : String) : Cell → List Markup
  | .blank => []
  | .text value =>
      let style := if bold.contains address then "1" else "0"
      [.element "c" [("r", address), ("s", style), ("t", "inlineStr")]
        [.element "is" [] [.element "t" [("xml:space", "preserve")] [.text value]]]]
  | .number value => [.element "c" [("r", address)] [.element "v" [] [.text (toString value)]]]

def rowMarkup (bold : List String) (cells : List Cell) (row : Nat) : Markup :=
  .element "row" [("r", toString row)] (cells.zipIdx.flatMap fun (cell, column) =>
    cellMarkup bold (columnLetter column ++ toString row) cell)

def freezeMarkup (address : String) : Markup :=
  .element "sheetViews" [] [.element "sheetView" [("workbookViewId", "0")]
    [.element "pane" [("ySplit", "1"), ("topLeftCell", address), ("activePane", "bottomLeft"),
      ("state", "frozen")] []]]

def widthMarkup (width : (String × Nat) × Nat) : Markup :=
  .element "col" [("min", toString width.2), ("max", toString width.2),
    ("width", toString width.1.2), ("customWidth", "1")] []

def sheetMarkup (sheet : Sheet) : Markup :=
  let views := sheet.freeze.toList.map freezeMarkup
  let widths :=
    if sheet.widths.isEmpty then []
    else [.element "cols" [] ((sheet.widths.zipIdx 1).map widthMarkup)]
  let rows := (sheet.rows.zipIdx 1).map fun (cells, row) => rowMarkup sheet.bold cells row
  .element "worksheet" [("xmlns", sheetVocabulary)]
    (views ++ widths ++ [.element "sheetData" [] rows])

/-! ## Documents about the sheets -/

def sheetFile (number : Nat) : String := s!"worksheets/sheet{number}.xml"

def sheetId (number : Nat) : String := s!"rId{number}"

def stylesId : String := "styles"

def workbookMarkup (workbook : Workbook) : Markup :=
  .element "workbook" [("xmlns", sheetVocabulary), ("xmlns:r", relation [])]
    [.element "sheets" [] ((workbook.zipIdx 1).map fun (sheet, number) =>
      .element "sheet" [("name", sheet.title), ("sheetId", toString number),
        ("r:id", sheetId number)] [])]

def relationMarkup (id kind target : String) : Markup :=
  .element "Relationship" [("Id", id), ("Type", relation [kind]), ("Target", target)] []

def relationsMarkup (relations : List Markup) : Markup :=
  .element "Relationships" [("xmlns", vocabulary ["package", "2006", "relationships"])] relations

def workbookRelations (workbook : Workbook) : Markup :=
  relationsMarkup ((workbook.zipIdx 1).map (fun (_, number) =>
    relationMarkup (sheetId number) "worksheet" (sheetFile number)) ++
      [relationMarkup stylesId "styles" "styles.xml"])

def partType (name kind : String) : Markup :=
  .element "Override" [("PartName", "/xl/" ++ name), ("ContentType", contentType kind)] []

def contentTypes (workbook : Workbook) : Markup :=
  .element "Types" [("xmlns", vocabulary ["package", "2006", "content-types"])]
    ([.element "Default" [("Extension", "rels"),
        ("ContentType", "application/vnd.openxmlformats-package.relationships+xml")] [],
      partType "workbook.xml" "sheet.main", partType "styles.xml" "styles"] ++
      (workbook.zipIdx 1).map fun (_, number) => partType (sheetFile number) "worksheet")

def cellFormat (font : String) : Markup :=
  .element "xf" [("numFmtId", "0"), ("fontId", font), ("fillId", "0"), ("borderId", "0")] []

def stylesMarkup : Markup :=
  .element "styleSheet" [("xmlns", sheetVocabulary)]
    [.element "fonts" [("count", "2")]
        [.element "font" [] [.element "sz" [("val", "11")] []],
          .element "font" [] [.element "b" [] [], .element "sz" [("val", "11")] []]],
      .element "fills" [("count", "1")]
        [.element "fill" [] [.element "patternFill" [("patternType", "none")] []]],
      .element "borders" [("count", "1")] [.element "border" [] []],
      .element "cellStyleXfs" [("count", "1")] [cellFormat "0"],
      .element "cellXfs" [("count", "2")] [cellFormat "0", cellFormat "1"]]

/-! ## The file -/

def member (name : String) (root : Markup) : File.Archive.Member :=
  ⟨name, (document root).toUTF8.toList⟩

/-- The bytes of a workbook's file. -/
def bytes (workbook : Workbook) : List UInt8 :=
  File.Archive.bytes ([member "[Content_Types].xml" (contentTypes workbook),
    member "_rels/.rels" (relationsMarkup
      [relationMarkup "rId1" "officeDocument" "xl/workbook.xml"]),
    member "xl/workbook.xml" (workbookMarkup workbook),
    member "xl/_rels/workbook.xml.rels" (workbookRelations workbook),
    member "xl/styles.xml" stylesMarkup] ++
      (workbook.zipIdx 1).map fun (sheet, number) =>
        member ("xl/" ++ sheetFile number) (sheetMarkup sheet))

end Mson.Report.Spreadsheet
