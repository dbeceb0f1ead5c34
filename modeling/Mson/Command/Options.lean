import Mson.Text.Quoted
import Mson.Text.Similar

/-!
# Options

The arguments of a command are options and texts. An option is named after two hyphens, and its
value is the next argument or follows an equals sign; options of one letter may stand together
after one hyphen. Two hyphens alone end the options.
-/
namespace Mson.Command

/-- What an option takes. -/
inductive OptionValue where
  | nothing
  | path
  | text
  | choice (words : List String)
  deriving DecidableEq, Repr

structure OptionSpec where
  name : String
  letter : Option Char := none
  value : OptionValue := .nothing
  required : Bool := false
  /-- The value shown as the one that is taken if none is given. -/
  standard : Option String := none
  /-- The option takes effect at once, whatever else is missing. -/
  eager : Bool := false
  help : String
  deriving DecidableEq, Repr

def OptionSpec.takesValue (option : OptionSpec) : Bool := option.value ≠ .nothing

/-- How an option is written with two hyphens. -/
def OptionSpec.long (option : OptionSpec) : String := "--" ++ option.name

inductive UsageFault where
  | unknownOption (text : String) (similar : List String)
  | valueMissing (option : String)
  | valueNotTaken (option : String)
  | optionMissing (option : String)
  | notAChoice (option value : String) (words : List String)
  | unexpectedArguments (texts : List String)
  | commandMissing
  | unknownCommand (text : String) (similar : List String)
  /-- A path holds a null character, which no path can. -/
  | nullInPath
  deriving DecidableEq, Repr

def quoted (text : String) : String := String.ofList (Text.quote text)

def quotedAll (texts : List String) : String := ", ".intercalate (texts.map quoted)

/-- What is said about the names that might have been meant. -/
def suggestion : List String → String
  | [] => ""
  | [name] => " Did you mean " ++ quoted name ++ "?"
  | names => " (Did you mean one of: " ++ quotedAll names ++ "?)"

def UsageFault.message : UsageFault → String
  | .unknownOption text similar =>
      "No such option " ++ quoted text ++ "." ++ suggestion similar
  | .valueMissing option => "Option " ++ quoted option ++ " requires an argument."
  | .valueNotTaken option => "Option " ++ quoted option ++ " does not take a value."
  | .optionMissing option => "Missing option " ++ quoted option ++ "."
  | .notAChoice option value words =>
      "Invalid value for " ++ quoted option ++ ": " ++ quoted value ++ " is not one of " ++
        quotedAll words ++ "."
  | .unexpectedArguments texts =>
      (if texts.length = 1 then "Got unexpected extra argument (" else
        "Got unexpected extra arguments (") ++ " ".intercalate texts ++ ")"
  | .commandMissing => "Missing command."
  | .unknownCommand text similar =>
      "No such command " ++ quoted text ++ "." ++ suggestion similar
  | .nullInPath => "embedded null byte"

/-- Whether the usage of the command is shown with the message. -/
def UsageFault.showsUsage : UsageFault → Bool
  | .valueMissing _ | .valueNotTaken _ => false
  | _ => true

/-- An option as given, with its value if it takes one. -/
structure Occurrence where
  option : OptionSpec
  value : String
  deriving DecidableEq, Repr

/-- What one argument says: the options in it, and the one among them whose value comes next. -/
structure OptionText where
  given : List Occurrence
  pending : Option OptionSpec

/-- Splits a text at its first equals sign. -/
def splitEquals (text : List Char) : List Char × Option (List Char) :=
  match text.dropWhile (· != '=') with
  | [] => (text, none)
  | _ :: value => (text.takeWhile (· != '='), some value)

/-- Reads an argument that begins with two hyphens. -/
def readLong (options : List OptionSpec) (text : List Char) : Except UsageFault OptionText :=
  let (name, value) := splitEquals text
  let name := String.ofList name
  match options.find? (fun option => option.long = name), value with
  | none, _ => .error (.unknownOption name (Text.closeTexts name (options.map OptionSpec.long)))
  | some option, some value =>
      if option.takesValue then .ok ⟨[⟨option, String.ofList value⟩], none⟩
      else .error (.valueNotTaken name)
  | some option, none =>
      if option.takesValue then .ok ⟨[], some option⟩ else .ok ⟨[⟨option, ""⟩], none⟩

/-- Reads letters after one hyphen; what follows the letter of an option with a value is the
value. -/
def readLetters (options : List OptionSpec) : List Char → Except UsageFault OptionText
  | [] => .ok ⟨[], none⟩
  | c :: rest =>
      match options.find? fun option => option.letter = some c with
      | none => .error (.unknownOption (String.ofList ['-', c]) [])
      | some option =>
          if option.takesValue then
            if rest.isEmpty then .ok ⟨[], some option⟩
            else .ok ⟨[⟨option, String.ofList rest⟩], none⟩
          else do
            let others ← readLetters options rest
            return { others with given := ⟨option, ""⟩ :: others.given }

/-- Reads an argument as options, unless it is a text. -/
def readOption? (options : List OptionSpec) (argument : String) :
    Option (Except UsageFault OptionText) :=
  match argument.toList with
  | '-' :: '-' :: rest => some (readLong options ('-' :: '-' :: rest))
  | '-' :: c :: rest => some (readLetters options (c :: rest))
  | _ => none

/-- The options among the arguments, and the texts. -/
structure Arguments where
  given : List Occurrence
  texts : List String

/-- Reads arguments. Unless options may follow texts, the first text ends them. -/
def readArguments (options : List OptionSpec) (mixed : Bool) :
    List String → Except UsageFault Arguments
  | [] => .ok ⟨[], []⟩
  | argument :: rest =>
      if argument = "--" then .ok ⟨[], rest⟩
      else match readOption? options argument with
        | none =>
            if mixed then do
              let others ← readArguments options mixed rest
              return { others with texts := argument :: others.texts }
            else .ok ⟨[], argument :: rest⟩
        | some (.error fault) => .error fault
        | some (.ok ⟨given, none⟩) => do
            let others ← readArguments options mixed rest
            return { others with given := given ++ others.given }
        | some (.ok ⟨given, some option⟩) =>
            match rest with
            | [] => .error (.valueMissing option.long)
            | value :: rest => do
                let others ← readArguments options mixed rest
                return { others with given := given ++ ⟨option, value⟩ :: others.given }

namespace Arguments

/-- The first option given that takes effect at once. -/
def eager? (arguments : Arguments) : Option OptionSpec :=
  (arguments.given.find? fun occurrence => occurrence.option.eager).map Occurrence.option

/-- The value of an option; of several the last counts. -/
def value? (arguments : Arguments) (name : String) : Option String :=
  (arguments.given.reverse.find? fun occurrence =>
    occurrence.option.name = name).map Occurrence.value

def has (arguments : Arguments) (name : String) : Bool := (arguments.value? name).isSome

/-- The fault in the value of an option. -/
def valueFault? (arguments : Arguments) (option : OptionSpec) : Option UsageFault :=
  match option.value, arguments.value? option.name with
  | .choice words, some value =>
      if words.contains value then none else some (.notAChoice option.long value words)
  | .path, some value => if value.contains '\x00' then some .nullInPath else none
  | _, _ => none

/-- The first fault in the values given, or else the first required option that is missing, or
else the texts that have no place. -/
def fault? (arguments : Arguments) (options : List OptionSpec) : Option UsageFault :=
  let missing := options.find? fun option => option.required && !arguments.has option.name
  match arguments.given.findSome? fun occurrence => arguments.valueFault? occurrence.option with
  | some fault => some fault
  | none =>
      match missing with
      | some option => some (.optionMissing option.long)
      | none =>
          if arguments.texts.isEmpty then none else some (.unexpectedArguments arguments.texts)

end Arguments

end Mson.Command
