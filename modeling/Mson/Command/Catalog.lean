import Mson.Command.Options
import Mson.Configuration.Scaffold

/-!
# The commands

What the program can be asked to do, with the options of each command.
-/
namespace Mson.Command

inductive CommandName where
  | generateConfig
  | listTypes
  | render
  | renderType
  deriving DecidableEq, Repr

def programName : String := "mson-render"

def version : String := "0.1.0"

/-- What the program is for. -/
def programHelp : String := "Render JSON Schemas and example bodies from MSON data structures."

namespace CommandName

/-- All commands, in order of their names. -/
def all : List CommandName := [.generateConfig, .listTypes, .render, .renderType]

def text : CommandName → String
  | .generateConfig => "generate-config"
  | .listTypes => "list-types"
  | .render => "render"
  | .renderType => "render-type"

def ofText? (text : String) : Option CommandName := all.find? fun command => command.text = text

def help : CommandName → String
  | .generateConfig => "Generate a render configuration file with the default settings."
  | .listTypes => "List the named data structures declared in an API description."
  | .render => "Render schemas and example bodies for every request and response."
  | .renderType => "Render the schema and example of one named data structure."

end CommandName

/-! ## Options -/

def helpOption : OptionSpec where
  name := "help"
  letter := some 'h'
  eager := true
  help := "Show this message and exit."

def programOptions : List OptionSpec :=
  [{ name := "version", eager := true, help := "Show the version and exit." },
    { name := "verbose", letter := some 'v', help := "Log rendering details to stderr." },
    helpOption]

def inputOption : OptionSpec where
  name := "input"
  value := .path
  required := true
  help := "Path to the API description AST (JSON)"

def configOption : OptionSpec where
  name := "config"
  value := .path
  help := "Optional YAML/JSON render configuration file"

/-- The part of a rendered type that may be asked for alone. -/
inductive Part where
  | schema
  | example_
  deriving DecidableEq, Repr

def Part.text : Part → String
  | .schema => "schema"
  | .example_ => "example"

def Part.ofText? (text : String) : Option Part :=
  [Part.schema, Part.example_].find? fun part => part.text = text

def CommandName.ownOptions : CommandName → List OptionSpec
  | .generateConfig =>
      [{ name := "output", value := .path, standard := some Configuration.defaultFileName,
         help := "Path to the YAML render configuration to write" }]
  | .listTypes => [inputOption]
  | .render =>
      [inputOption, configOption,
        { name := "output", value := .path,
          help := "Path to the JSON result document; printed to stdout when omitted" },
        { name := "report", value := .path,
          help := "Optional path for a render report workbook (.xlsx)" }]
  | .renderType =>
      [inputOption,
        { name := "name", value := .text, required := true,
          help := "Name of the data structure to render" },
        configOption,
        { name := "only", value := .choice [Part.schema.text, Part.example_.text],
          help := "Print only one of the two artifacts" }]

def CommandName.options (command : CommandName) : List OptionSpec :=
  command.ownOptions ++ [helpOption]

end Mson.Command
