import Redline.Json.Value

/-! JSON values as compact text. -/

namespace Redline.Json

def hexUnit (n : Nat) : List Char :=
  [n / 4096, n / 256, n / 16, n].map fun digit => (digit % 16).digitChar

/-- A character of a string. Quotes, backslashes and controls are escaped, with one letter where
there is one. All others stand for themselves. -/
def printChar (c : Char) : List Char :=
  if c = '"' then ['\\', '"']
  else if c = '\\' then ['\\', '\\']
  else if c = '\x08' then ['\\', 'b']
  else if c = '\x0c' then ['\\', 'f']
  else if c = '\n' then ['\\', 'n']
  else if c = '\r' then ['\\', 'r']
  else if c = '\t' then ['\\', 't']
  else if c < ' ' then '\\' :: 'u' :: hexUnit c.toNat
  else [c]

def printString (string : List Char) : List Char :=
  '"' :: string.flatMap printChar ++ ['"']

def printBool (value : Bool) : List Char :=
  if value then ['t', 'r', 'u', 'e'] else ['f', 'a', 'l', 's', 'e']

def printNull : List Char := ['n', 'u', 'l', 'l']

def Number.print : Number → List Char
  | .integer value => (toString value).toList
  | .float value => (Decimal.ofFloat value).text.toList

def commaSeparated : List (List Char) → List Char
  | [] => []
  | [text] => text
  | text :: next :: texts => text ++ ',' :: commaSeparated (next :: texts)

mutual

def Value.print : Value → List Char
  | .null => printNull
  | .bool value => printBool value
  | .number value => value.print
  | .string value => printString value
  | .array elements => '[' :: commaSeparated (printElements elements) ++ [']']
  | .object members => '{' :: commaSeparated (printMembers members) ++ ['}']

def printElements : List Value → List (List Char)
  | [] => []
  | value :: elements => value.print :: printElements elements

def printMembers : List (List Char × Value) → List (List Char)
  | [] => []
  | (key, value) :: members => (printString key ++ ':' :: value.print) :: printMembers members

end

end Redline.Json
