import Redline.Text.Hidden

/-! Texts in quotes, as faults show them. -/

namespace Redline.Text

def hexText (n : Nat) : String :=
  String.ofList (Nat.toDigits 16 n)

/-- A character between quotes: quotes, backslashes and the common controls have escapes of two
characters, other hidden characters are written as their code point. -/
def quotedChar (c : Char) : String :=
  if c = '"' then "\\\""
  else if c = '\\' then "\\\\"
  else if c = '\n' then "\\n"
  else if c = '\r' then "\\r"
  else if c = '\t' then "\\t"
  else if c = '\x00' then "\\0"
  else if isHidden c then "\\u\x7b" ++ hexText c.toNat ++ "\x7d"
  else c.toString

def quoted (text : List Char) : String :=
  "\"" ++ String.join (text.map quotedChar) ++ "\""

end Redline.Text
