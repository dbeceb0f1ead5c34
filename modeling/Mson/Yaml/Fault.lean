import Mson.Text.Quoted
import Mson.Time.Calendar

/-!
# Faults of YAML texts

Why a text has no value: it breaks the grammar, its nodes do not fit together, or a scalar does not
denote a value of its tag. `Fault.isMalformed` tells the first two from the third.
-/
namespace Mson.Yaml

inductive Fault where
  | unprintableCharacter
  | keyWithoutColon
  | entryNotAllowed
  | keyNotAllowed
  | valueNotAllowed
  | strayCharacter
  | badDirective
  | badAnchor
  | badTag
  | badBlockHeader
  | badEscape
  | unterminatedScalar
  | separatorInScalar
  | unbalancedBracket
  | nodeExpected
  | blockEndExpected
  | flowEndExpected
  | documentStartExpected
  | duplicateDirective
  | unsupportedVersion
  | undefinedHandle
  | undefinedAlias
  | duplicateAnchor
  | severalDocuments
  | unknownTag
  | wrongNodeShape
  | unusableKey
  | notMergeable
  | undecodableBinary
  /-- An escape stands for a number beyond the last character. -/
  | escapeOutOfRange
  /-- An escape stands for a number of more than 31 bits. -/
  | escapeTooLarge
  /-- A scalar is no integer in its base. -/
  | notAnInteger (base : Nat) (text : String)
  | tooManyDigits (count : Nat)
  | notAFloat (text : String)
  | notABoolean (text : String)
  | emptyNumber
  /-- A number in base sixty has a place that no double reaches. -/
  | placeTooHigh
  | notATimestamp
  /-- A mapping with a principal value stands for a timestamp. -/
  | timestampInMapping
  /-- A mapping is its own principal value, at whatever depth. -/
  | endlessPrincipal
  | impossibleTime (fault : Time.CalendarFault)
  deriving DecidableEq, Repr

/-- Whether the text breaks the grammar or its nodes do not fit together. -/
def Fault.isMalformed : Fault → Bool
  | .escapeOutOfRange | .escapeTooLarge | .notAnInteger .. | .tooManyDigits _ | .notAFloat _
  | .notABoolean _ | .emptyNumber | .placeTooHigh | .notATimestamp | .timestampInMapping
  | .endlessPrincipal | .impossibleTime _ => false
  | _ => true

def quoted (text : String) : String := String.ofList (Text.quote text)

/-- A text that is no integer is shown with at most so many characters. -/
def shownLength : Nat := 200

def Fault.message : Fault → String
  | .unprintableCharacter => "the text has a character that cannot be printed"
  | .keyWithoutColon => "a key is not followed by a colon"
  | .entryNotAllowed => "a sequence entry is not allowed here"
  | .keyNotAllowed => "a mapping key is not allowed here"
  | .valueNotAllowed => "a mapping value is not allowed here"
  | .strayCharacter => "no token starts with this character"
  | .badDirective => "a directive is malformed"
  | .badAnchor => "an anchor or alias is malformed"
  | .badTag => "a tag is malformed"
  | .badBlockHeader => "the header of a block scalar is malformed"
  | .badEscape => "an escape is unknown or incomplete"
  | .unterminatedScalar => "a quoted scalar has no end"
  | .separatorInScalar => "a document ends within a quoted scalar"
  | .unbalancedBracket => "a bracket closes nothing"
  | .nodeExpected => "a node is missing"
  | .blockEndExpected => "a block collection goes on where it has to end"
  | .flowEndExpected => "a bracket or comma is missing"
  | .documentStartExpected => "the start of a document is missing"
  | .duplicateDirective => "a directive is given twice"
  | .unsupportedVersion => "only version 1 is read"
  | .undefinedHandle => "the handle of a tag is not defined"
  | .undefinedAlias => "an alias has no anchor"
  | .duplicateAnchor => "an anchor is given twice"
  | .severalDocuments => "there is more than one document"
  | .unknownTag => "a tag is unknown"
  | .wrongNodeShape => "a node does not have the shape its tag asks for"
  | .unusableKey => "a collection cannot be a key"
  | .notMergeable => "only mappings can be merged"
  | .undecodableBinary => "binary data is malformed"
  | .escapeOutOfRange => "chr() arg not in range(0x110000)"
  | .escapeTooLarge => "Python int too large to convert to C int"
  | .notAnInteger base text =>
      s!"invalid literal for int() with base {base}: " ++
        String.ofList ((Text.quote text).take shownLength)
  | .tooManyDigits count =>
      "Exceeds the limit (4300 digits) for integer string conversion: value has " ++
        s!"{count} digits; use sys.set_int_max_str_digits() to increase the limit"
  | .notAFloat text => "could not convert string to float: " ++ quoted text
  | .notABoolean text => quoted text
  | .emptyNumber => "string index out of range"
  | .placeTooHigh => "int too large to convert to float"
  | .notATimestamp => "'NoneType' object has no attribute 'groupdict'"
  | .timestampInMapping => "expected string or bytes-like object, got 'list'"
  | .endlessPrincipal => "maximum recursion depth exceeded"
  | .impossibleTime fault => fault.message

end Mson.Yaml
