import Mson.Run.Settings
import Mson.Text.Blank
import Mson.Text.Newline
import Mson.Text.Utf8
import Mson.Yaml.Value

/-!
# Reading configurations

A configuration is a YAML mapping of two sections, `output` and `rendering`, each a mapping
itself. What is left out has its default; a section of another name is refused, another key within
a section is not.
-/
namespace Mson.Configuration

open Yaml (Atom Contents NodeId)

/-- Why a file is no configuration. -/
inductive ConfigurationError where
  | fileMissing (path : String)
  | unparsable (fault : Yaml.Fault)
  | rootNotAMapping
  | unknownSections (names : List String)
  | sectionNotAMapping (name : String)
  | indentNotPositive
  | schemaUriBlank
  /-- The value of a key of the section `rendering` is no truth value. -/
  | notASwitch (key : String)
  deriving DecidableEq, Repr

/-- Why a file has no reading at all: it is no configuration, or its bytes, a scalar or a number
in it denote nothing. -/
inductive ConfigurationFault where
  | invalid (error : ConfigurationError)
  | undecodable (fault : Text.Utf8.Fault)
  | scalar (fault : Yaml.Fault)
  | infiniteIndent
  /-- The number that names a section is too long to be shown. -/
  | sectionTooLong
  deriving DecidableEq, Repr

/-- What the message about a text that is no YAML begins with. -/
def unparsableText : String := "Failed to parse configuration file:"

def ConfigurationError.message : ConfigurationError → String
  | .fileMissing path => "Configuration file not found: " ++ path
  | .unparsable fault => unparsableText ++ " " ++ fault.message
  | .rootNotAMapping => "Configuration root must be a mapping."
  | .unknownSections names => "Unknown configuration sections: " ++ ", ".intercalate names
  | .sectionNotAMapping name => name ++ " section must be a mapping."
  | .indentNotPositive => "output.indent must be a positive integer."
  | .schemaUriBlank => "output.schema_uri must be a non-empty string."
  | .notASwitch key => "rendering." ++ key ++ " must be true or false."

def ConfigurationFault.message : ConfigurationFault → String
  | .invalid error => error.message
  | .undecodable fault => fault.message
  | .scalar fault => fault.message
  | .infiniteIndent => "cannot convert float infinity to integer"
  | .sectionTooLong =>
      "Exceeds the limit (4300 digits) for integer string conversion; " ++
        "use sys.set_int_max_str_digits() to increase the limit"

abbrev Reading := Except ConfigurationFault

def refuse (error : ConfigurationError) : Reading α := .error (.invalid error)

def ofFault (fault : Yaml.Fault) : ConfigurationFault :=
  if fault.isMalformed then .invalid (.unparsable fault) else .scalar fault

/-- A mapping with the values of its keys. -/
abbrev Section := List (Atom × NodeId)

def Section.get? (entries : Section) (name : String) : Option NodeId :=
  (List.find? (fun entry => entry.1.sameKey (.string name)) entries).map Prod.snd

/-- A section by its name; one that is missing or null is empty. -/
def readSection (contents : Contents) (root : Section) (name : String) : Reading Section := do
  match root.get? name with
  | none => return []
  | some node =>
      match contents.value node with
      | .mapping entries => return entries
      | .atom .null => return []
      | _ => refuse (.sectionNotAMapping name)

/-- The value of a key in a section, or the default if the section does not have it. -/
def readKey (contents : Contents) (entries : Section) (name : String) (standard : α)
    (read : Yaml.Value → Reading α) : Reading α := do
  match entries.get? name with
  | none => return standard
  | some node => read (contents.value node)

/-! ## Values of keys -/

/-- The integer that a text denotes, if it is not too long. -/
def textInteger? (text : List Char) : Option Int := do
  let written ← Text.readInteger? 10 text
  guard (written.digits.length ≤ Text.digitLimit)
  return written.value 10

/-- The integer that a value stands for. A fraction is cut off. -/
def readInteger (value : Yaml.Value) : Reading (Option Int) :=
  match value with
  | .atom (.int value) => .ok (some value)
  | .atom (.double (.infinity _)) => .error .infiniteIndent
  | .atom (.double value) => .ok value.truncate?
  | .atom (.string text) => .ok (textInteger? text.toList)
  | .atom (.binary bytes) =>
      .ok (if bytes.all fun byte => byte.toNat < 0x80 then
        textInteger? (bytes.map fun byte => Char.ofNat byte.toNat) else none)
  | _ => .ok none

def readIndent (value : Yaml.Value) : Reading Nat := do
  match ← readInteger value with
  | some indent => if 0 < indent then return indent.toNat else refuse .indentNotPositive
  | none => refuse .indentNotPositive

def readSchemaUri (value : Yaml.Value) : Reading String :=
  match value with
  | .atom (.string text) =>
      if Text.isBlankText text then refuse .schemaUriBlank else .ok (Text.trim text)
  | _ => refuse .schemaUriBlank

def readSwitch (key : String) (value : Yaml.Value) : Reading Bool :=
  match value with
  | .atom (.bool value) => .ok value
  | _ => refuse (.notASwitch key)

/-! ## Sections -/

def readOutput (contents : Contents) (entries : Section) : Reading OutputSettings := do
  let indent ← readKey contents entries "indent" 2 readIndent
  let schemaUri ← readKey contents entries "schema_uri" draft04 readSchemaUri
  return { indent, schemaUri }

def readRendering (contents : Contents) (entries : Section) : Reading RenderingSettings := do
  let switch (key : String) := readKey contents entries key true (readSwitch key)
  let schemas ← switch "schemas"
  let examples ← switch "examples"
  let keepProvidedSchemas ← switch "keep_provided_schemas"
  let skipCyclicTypes ← switch "skip_cyclic_types"
  return { schemas, examples, keepProvidedSchemas, skipCyclicTypes }

def sectionNames : List String := ["output", "rendering"]

def isKnown (key : Atom) : Bool := sectionNames.any fun name => key.sameKey (.string name)

def sectionText (key : Atom) : Reading String :=
  match key with
  | .int value =>
      if powerOf 10 Text.digitLimit ≤ value.natAbs then .error .sectionTooLong else .ok (Atom.text key)
  | key => .ok key.text

def readRoot (contents : Contents) (root : Section) : Reading Settings := do
  let unknown ← (root.filter fun entry => !isKnown entry.1).mapM fun entry => sectionText entry.1
  unless unknown.isEmpty do
    refuse (.unknownSections (unknown.mergeSort fun left right => decide (left ≤ right)))
  let output ← readOutput contents (← readSection contents root "output")
  let rendering ← readRendering contents (← readSection contents root "rendering")
  return { output, rendering }

/-- The settings in the text of a configuration file. -/
def ofText (text : List Char) : Reading Settings := do
  match ← (Yaml.read? text).mapError ofFault with
  | none => return {}
  | some contents =>
      match contents.value contents.root with
      | .mapping entries => readRoot contents entries
      | .atom .null => return {}
      | _ => refuse .rootNotAMapping

/-- The settings in the bytes of a configuration file. -/
def ofBytes (bytes : List UInt8) : Reading Settings := do
  let text ← (Text.Utf8.decode bytes).mapError .undecodable
  ofText (Text.unifyNewlines text)

end Mson.Configuration
