import Mson.Command.Catalog

/-!
# Help pages

How a command is used, what it is for, and its options in two columns. Lines have at most 78
characters; a text that is longer goes on below its beginning.
-/
namespace Mson.Command

def pageWidth : Nat := 78

def blanks (count : Nat) : String := String.ofList (List.replicate count ' ')

/-- Fills lines with words: `line` is the line that has been begun. -/
def fillLines (width : Nat) (line : String) : List String → List String
  | [] => [line]
  | word :: words =>
      let longer := line ++ " " ++ word
      if longer.length ≤ width then fillLines width longer words
      else line :: fillLines width word words

/-- The lines of a text. -/
def wrap (width : Nat) (text : String) : List String :=
  match text.splitOn " " with
  | [] => []
  | word :: words => fillLines width word words

/-- Rows of two columns, the second of which begins at one place. -/
def table (rows : List (String × String)) : List String :=
  let first := (rows.map fun row => row.1.length).foldl max 0 + 2
  rows.flatMap fun (name, text) =>
    match wrap (pageWidth - first - 2) text with
    | [] => ["  " ++ name]
    | line :: lines =>
        ("  " ++ name ++ blanks (first - name.length) ++ line) ::
          lines.map fun line => blanks (first + 2) ++ line

/-! ## Options -/

def OptionSpec.written (option : OptionSpec) : String :=
  let name := match option.letter with
    | some letter => String.ofList ['-', letter] ++ ", " ++ option.long
    | none => option.long
  match option.value with
  | .nothing => name
  | .path => name ++ " PATH"
  | .text => name ++ " TEXT"
  | .choice words => name ++ " [" ++ "|".intercalate words ++ "]"

def OptionSpec.explanation (option : OptionSpec) : String :=
  option.help ++ (if option.required then "  [required]" else "") ++
    (match option.standard with
      | some value => "  [default: " ++ value ++ "]"
      | none => "")

def optionTable (options : List OptionSpec) : List String :=
  "Options:" :: table (options.map fun option => (option.written, option.explanation))

/-! ## Commands -/

/-- The longest run of words that fits with dots after it. -/
def abbreviateWords (width : Nat) (line : String) : List String → String
  | [] => line ++ "..."
  | word :: words =>
      let longer := if line = "" then word else line ++ " " ++ word
      if longer.length + 3 ≤ width then abbreviateWords width longer words else line ++ "..."

/-- A text of at most `width` characters. -/
def abbreviate (width : Nat) (text : String) : String :=
  if text.length ≤ width then text else abbreviateWords width "" (text.splitOn " ")

def commandTable : List String :=
  let longest := (CommandName.all.map fun command => command.text.length).foldl max 0
  "Commands:" :: table (CommandName.all.map fun command =>
    (command.text, abbreviate (pageWidth - longest - 6) command.help))

/-! ## Pages -/

/-- What a page is about: the program, or one of its commands. -/
abbrev Topic := Option CommandName

def Topic.path : Topic → String
  | none => programName
  | some command => programName ++ " " ++ command.text

def usageLine (topic : Topic) : String :=
  "Usage: " ++ Topic.path topic ++ " [OPTIONS]" ++
    (if topic.isNone then " COMMAND [ARGS]..." else "")

def pageLines (topic : Topic) : List String :=
  match topic with
  | none =>
      [usageLine none, "", "  " ++ programHelp, ""] ++ optionTable programOptions ++
        [""] ++ commandTable
  | some command =>
      [usageLine command, "", "  " ++ command.help, ""] ++ optionTable command.options

/-- Lines with a line end after each. -/
def unlines (lines : List String) : String := String.join (lines.map fun line => line ++ "\n")

def helpPage (topic : Topic) : String := unlines (pageLines topic)

/-- What is shown for a fault in the arguments. -/
def usageText (topic : Topic) (fault : UsageFault) : String :=
  let usage :=
    if fault.showsUsage then
      [usageLine topic, "Try '" ++ Topic.path topic ++ " " ++ helpOption.long ++ "' for help.", ""]
    else []
  unlines (usage ++ ["Error: " ++ fault.message])

end Mson.Command
