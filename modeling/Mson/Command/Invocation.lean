import Mson.Command.HelpPage

/-!
# Invocations

What the arguments of the program ask for. The options of the program come first, then the name of a
command and its arguments.
-/
namespace Mson.Command

/-- A command with what it works on. -/
inductive Request where
  | generateConfig (output : String)
  | listTypes (input : String)
  | render (input : String) (config output report : Option String)
  | renderType (input name : String) (config : Option String) (only : Option Part)
  deriving DecidableEq, Repr

inductive Invocation where
  | help (topic : Topic)
  | version
  | run (verbose : Bool) (request : Request)
  deriving DecidableEq, Repr

/-- Why the arguments ask for nothing. -/
inductive InvocationError where
  | noArguments
  | usage (topic : Topic) (fault : UsageFault)
  deriving DecidableEq, Repr

/-- Whether the program accounts for the arguments. It does not for a path that cannot be one. -/
def InvocationError.isReported : InvocationError → Bool
  | .usage _ .nullInPath => false
  | _ => true

def InvocationError.text : InvocationError → String
  | .noArguments => helpPage none
  | .usage topic fault => usageText topic fault

/-- The command of the given name, with arguments that have no fault. -/
def requestOf (name : CommandName) (arguments : Arguments) : Request :=
  let input := (arguments.value? inputOption.name).getD ""
  let config := arguments.value? configOption.name
  match name with
  | .generateConfig =>
      .generateConfig ((arguments.value? "output").getD Configuration.defaultFileName)
  | .listTypes => .listTypes input
  | .render => .render input config (arguments.value? "output") (arguments.value? "report")
  | .renderType =>
      .renderType input ((arguments.value? "name").getD "") config
        ((arguments.value? "only").bind Part.ofText?)

def usageError (topic : Topic) (fault : UsageFault) : InvocationError := .usage topic fault

/-- Reads the arguments of a command. -/
def readCommand (verbose : Bool) (name : CommandName) (arguments : List String) :
    Except InvocationError Invocation := do
  let found ← (readArguments name.options true arguments).mapError (usageError name)
  if found.eager?.isSome then return .help name
  match found.fault? name.options with
  | some fault => throw (usageError name fault)
  | none => return .run verbose (requestOf name found)

/-- What an option of the program asks for that takes effect at once. -/
def eagerInvocation (option : OptionSpec) : Invocation :=
  if option = helpOption then .help none else .version

/-- What a text that names no command comes to: it may be an option, which takes effect if it is
one of those that do at once. -/
def readUnknown (text : String) (arguments : List String) : Except InvocationError Invocation := do
  let found ← (readArguments programOptions false (text :: arguments)).mapError (usageError none)
  match found.eager? with
  | some option => return eagerInvocation option
  | none =>
      let names := CommandName.all.map CommandName.text
      throw (usageError none (.unknownCommand text (Text.closeTexts text names)))

def Invocation.ofArguments (arguments : List String) : Except InvocationError Invocation := do
  if arguments.isEmpty then throw .noArguments
  let found ← (readArguments programOptions false arguments).mapError (usageError none)
  match found.eager?, found.texts with
  | some option, _ => return eagerInvocation option
  | none, [] => throw (usageError none .commandMissing)
  | none, text :: rest =>
      match CommandName.ofText? text with
      | some name => readCommand (found.has "verbose") name rest
      | none => readUnknown text rest

end Mson.Command
