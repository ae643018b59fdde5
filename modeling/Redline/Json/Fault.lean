import Redline.Decimal.Text
import Redline.Text.Quoted

/-! What can be wrong with a JSON text, and where. -/

namespace Redline.Json

inductive Found where
  | null
  | bool (value : Bool)
  | integer (value : Int)
  | float (value : Float)
  | string (value : List Char)
  | sequence
  | map

inductive Cause where
  | endInValue
  | endInList
  | endInObject
  | endInString
  | expectedColon
  | expectedListEnd
  | expectedObjectEnd
  | expectedWord
  | expectedValue
  | invalidEscape
  | invalidNumber
  | numberOutOfRange
  | loneSurrogate
  | endOfHexEscape
  | controlCharacter
  | keyNotString
  | trailingComma
  | trailingCharacters
  | nestedTooDeep
  | wrongType (found : Found) (expected : String)
  | wrongRange (found : Int) (expected : String)
  | duplicateField (name : List Char)

def Found.text : Found → String
  | .null => "null"
  | .bool value => s!"boolean `{value}`"
  | .integer value => s!"integer `{value}`"
  | .float value => s!"floating point `{(Decimal.ofFloat value).text}`"
  | .string value => s!"string {Text.quoted value}"
  | .sequence => "sequence"
  | .map => "map"

def Cause.text : Cause → String
  | .endInValue => "EOF while parsing a value"
  | .endInList => "EOF while parsing a list"
  | .endInObject => "EOF while parsing an object"
  | .endInString => "EOF while parsing a string"
  | .expectedColon => "expected `:`"
  | .expectedListEnd => "expected `,` or `]`"
  | .expectedObjectEnd => "expected `,` or `\x7d`"
  | .expectedWord => "expected ident"
  | .expectedValue => "expected value"
  | .invalidEscape => "invalid escape"
  | .invalidNumber => "invalid number"
  | .numberOutOfRange => "number out of range"
  | .loneSurrogate => "lone leading surrogate in hex escape"
  | .endOfHexEscape => "unexpected end of hex escape"
  | .controlCharacter => "control character (\\u0000-\\u001F) found while parsing a string"
  | .keyNotString => "key must be a string"
  | .trailingComma => "trailing comma"
  | .trailingCharacters => "trailing characters"
  | .nestedTooDeep => "recursion limit exceeded"
  | .wrongType found expected => s!"invalid type: {found.text}, expected {expected}"
  | .wrongRange found expected => s!"invalid value: integer `{found}`, expected {expected}"
  | .duplicateField name => s!"duplicate field `{String.ofList name}`"

/-- A cause with its place: so many bytes behind the point where only `rest` is left to read, or
the end of the text if that comes first. -/
structure Fault where
  cause : Cause
  rest : List Char
  ahead : Nat

def byteLength (text : List Char) : Nat :=
  (String.ofList text).utf8ByteSize

/-- Line and column of a place in a text, given in bytes from its start. Lines count from 1.
The column is the number of bytes since the last newline. -/
def position (line column : Nat) (text : List Char) (bytes : Nat) : Nat × Nat :=
  match text with
  | [] => (line, column)
  | c :: rest =>
    if bytes < c.utf8Size then (line, column + bytes)
    else if c = '\n' then position (line + 1) 0 rest (bytes - 1)
    else position line (column + c.utf8Size) rest (bytes - c.utf8Size)

def Fault.message (fault : Fault) (text : List Char) : String :=
  let bytes := byteLength text - byteLength fault.rest + fault.ahead
  let (line, column) := position 1 0 text bytes
  s!"{fault.cause.text} at line {line} column {column}"

end Redline.Json
