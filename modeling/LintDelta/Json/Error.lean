import LintDelta.Json.Value
import LintDelta.Text.Quoted

/-!
# What can be wrong with a JSON text

A reader stops at the first problem from left to right. `Error` lists the causes: those of the
notation itself, and those of a value that is not what its reader wants.
-/

namespace LintDelta.Json

inductive Error where
  | endInValue
  | endInList
  | endInObject
  | endInText
  | noValue
  | badWord
  | noListSeparator
  | noObjectSeparator
  | noColon
  | trailingComma
  | trailingCharacters
  | keyNotText
  | badNumber
  | numberTooLarge
  | badEscape
  | cutEscape
  | loneSurrogate
  | controlCharacter
  | tooDeep
  | missingField (key : String)
  | duplicateField (key : String)
  | unknownVariant (name : String) (known : List String)
  | wrongType (found : Found) (wanted : String)
  | wrongValue (found : Found) (wanted : String)
  | wrongLength (length : Nat) (wanted : String)
  deriving DecidableEq, Repr

def ticked (s : String) : String := "`" ++ s ++ "`"

def Found.describe : Found → String
  | .null => "null"
  | .bool b => "boolean " ++ ticked (if b then "true" else "false")
  | .integer n => "integer " ++ ticked (toString n)
  | .float x => "floating point " ++ ticked x.text
  | .text s => "string " ++ Text.quoted s
  | .list => "sequence"
  | .object => "map"
  | .bareVariant => "unit variant"

/-- The known names, as an error lists them. -/
def oneOf : List String → String
  | [] => "there are no variants"
  | [a] => "expected " ++ ticked a
  | [a, b] => "expected " ++ ticked a ++ " or " ++ ticked b
  | names => "expected one of " ++ String.intercalate ", " (names.map ticked)

def Error.message : Error → String
  | .endInValue => "EOF while parsing a value"
  | .endInList => "EOF while parsing a list"
  | .endInObject => "EOF while parsing an object"
  | .endInText => "EOF while parsing a string"
  | .noValue => "expected value"
  | .badWord => "expected ident"
  | .noListSeparator => "expected `,` or `]`"
  | .noObjectSeparator => "expected `,` or `\x7d`"
  | .noColon => "expected `:`"
  | .trailingComma => "trailing comma"
  | .trailingCharacters => "trailing characters"
  | .keyNotText => "key must be a string"
  | .badNumber => "invalid number"
  | .numberTooLarge => "number out of range"
  | .badEscape => "invalid escape"
  | .cutEscape => "unexpected end of hex escape"
  | .loneSurrogate => "lone leading surrogate in hex escape"
  | .controlCharacter =>
    "control character (\\u0000-\\u001F) found while parsing a string"
  | .tooDeep => "recursion limit exceeded"
  | .missingField key => "missing field " ++ ticked key
  | .duplicateField key => "duplicate field " ++ ticked key
  | .unknownVariant name known => "unknown variant " ++ ticked name ++ ", " ++ oneOf known
  | .wrongType found wanted => "invalid type: " ++ found.describe ++ ", expected " ++ wanted
  | .wrongValue found wanted => "invalid value: " ++ found.describe ++ ", expected " ++ wanted
  | .wrongLength n wanted => "invalid length " ++ toString n ++ ", expected " ++ wanted

end LintDelta.Json
