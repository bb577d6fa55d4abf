import ScriptWasm.Number.Decimal
import ScriptWasm.Text.Quoted

/-!
# What can be wrong with a JSON text

A problem is a cause: the text breaks the grammar, or it holds a value of the wrong shape. Its
wording is decided in `Problem.message` alone. Where the problem lies is not part of it; the reader
of a text knows places, the decoder of a buffered value does not.
-/

namespace ScriptWasm.Json

/-- What stands where something else was expected. -/
inductive Found where
  | null
  | boolean (value : Bool)
  | integer (value : Int)
  | float (value : Binary64)
  | text (value : String)
  | sequence
  | map
  | unitVariant
deriving DecidableEq, Repr

def Found.message : Found → String
  | .null => "null"
  | .boolean b => s!"boolean `{b}`"
  | .integer n => s!"integer `{n}`"
  | .float x => s!"floating point `{x.text}`"
  | .text s => s!"string {Text.quoted s}"
  | .sequence => "sequence"
  | .map => "map"
  | .unitVariant => "unit variant"

/-- Why a text cannot be read as the value that is asked for. -/
inductive Problem where
  | endOfList
  | endOfObject
  | endOfString
  | endOfValue
  | expectedColon
  | expectedListCommaOrEnd
  | expectedObjectCommaOrEnd
  | expectedIdent
  | expectedValue
  | invalidEscape
  | invalidNumber
  | numberOutOfRange
  | invalidCodePoint
  | controlCharacter
  | keyMustBeString
  | loneSurrogate
  | trailingComma
  | trailingCharacters
  | unfinishedSurrogate
  | nestedTooDeep
  | invalidType (found : Found) (expected : String)
  | invalidValue (found : Found) (expected : String)
  | invalidLength (length : Nat) (expected : String)
  | unknownVariant (name : String) (options : List String)
  | missingField (name : String)
  | duplicateField (name : String)
deriving DecidableEq, Repr

/-- A name as it is shown in a message. -/
def ticked (name : String) : String := "`" ++ name ++ "`"

/-- The names that would have been accepted. -/
def oneOf : List String → String
  | [] => "there are no variants"
  | [a] => "expected " ++ ticked a
  | [a, b] => "expected " ++ ticked a ++ " or " ++ ticked b
  | options => "expected one of " ++ ", ".intercalate (options.map ticked)

def Problem.message : Problem → String
  | .endOfList => "EOF while parsing a list"
  | .endOfObject => "EOF while parsing an object"
  | .endOfString => "EOF while parsing a string"
  | .endOfValue => "EOF while parsing a value"
  | .expectedColon => "expected `:`"
  | .expectedListCommaOrEnd => "expected `,` or `]`"
  | .expectedObjectCommaOrEnd => "expected `,` or `\x7d`"
  | .expectedIdent => "expected ident"
  | .expectedValue => "expected value"
  | .invalidEscape => "invalid escape"
  | .invalidNumber => "invalid number"
  | .numberOutOfRange => "number out of range"
  | .invalidCodePoint => "invalid unicode code point"
  | .controlCharacter => "control character (\\u0000-\\u001F) found while parsing a string"
  | .keyMustBeString => "key must be a string"
  | .loneSurrogate => "lone leading surrogate in hex escape"
  | .trailingComma => "trailing comma"
  | .trailingCharacters => "trailing characters"
  | .unfinishedSurrogate => "unexpected end of hex escape"
  | .nestedTooDeep => "recursion limit exceeded"
  | .invalidType found expected => "invalid type: " ++ found.message ++ ", expected " ++ expected
  | .invalidValue found expected => "invalid value: " ++ found.message ++ ", expected " ++ expected
  | .invalidLength length expected =>
    "invalid length " ++ toString length ++ ", expected " ++ expected
  | .unknownVariant name options => "unknown variant " ++ ticked name ++ ", " ++ oneOf options
  | .missingField name => "missing field " ++ ticked name
  | .duplicateField name => "duplicate field " ++ ticked name

end ScriptWasm.Json
