import Mson.Json.Reader
import Mson.Text.Newline
import Mson.Text.Utf8

/-!
# API descriptions

An API description is the object at the root of a JSON file. A file may also hold the result of a
parser that has put the description under `ast`.
-/
namespace Mson

abbrev Description := Mapping Json

inductive DescriptionError where
  | fileMissing (path : String)
  /-- The file cannot be read, for the reason given. -/
  | unreadable (reason : String)
  | invalidJson (message : String)
  | rootNotAnObject
  /-- A number in the file is too long to be read. -/
  | numberTooLong (message : String)
  deriving DecidableEq, Repr

def DescriptionError.message : DescriptionError → String
  | .fileMissing path => "API description file not found: " ++ path
  | .unreadable reason => "Failed to read API description: " ++ reason
  | .invalidJson message => "Invalid API description JSON: " ++ message
  | .rootNotAnObject => "API description root must be a JSON object."
  | .numberTooLong message => message

namespace Description

/-- The description in a JSON document, out of its envelope if it has one. -/
def ofJson (document : Json) : Except DescriptionError Description :=
  let root := match document.field? "ast" with
    | some (.object entries) => Json.object entries
    | _ => document
  match root with
  | .object entries => .ok entries
  | _ => .error .rootNotAnObject

/-- The description in the text of a file. -/
def ofText (text : List Char) : Except DescriptionError Description :=
  match Json.readChars text with
  | .ok document => ofJson document
  | .error fault =>
      if fault.cause.isGrammatical then .error (.invalidJson (fault.message text))
      else .error (.numberTooLong (fault.message text))

/-- The description in the bytes of a file. -/
def ofBytes (bytes : List UInt8) : Except DescriptionError Description :=
  match Text.Utf8.decode bytes with
  | .ok text => ofText (Text.unifyNewlines text)
  | .error fault => .error (.unreadable fault.message)

end Description

end Mson
