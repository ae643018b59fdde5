/-! What a terminal would show of a text: control characters and control sequences are left out. -/

namespace Redline.Text

inductive Sequence where
  | none
  | escape
  | short
  | control
  | command
  | device
  | deviceParameters
  | deviceShort
  | string
  deriving DecidableEq, Repr

def isLayout (c : Char) : Bool :=
  c = '\t' || c = '\n' || c = '\x0c' || c = '\r'

def Sequence.isString : Sequence → Bool
  | .command | .device | .deviceParameters | .deviceShort | .string => true
  | .none | .escape | .short | .control => false

def endsString (c : Char) : Bool :=
  c.toString.toUTF8.data.contains 0x9c

def Sequence.ofIntroducer (c : Char) : Sequence :=
  if c = '[' then .control
  else if c = ']' then .command
  else if c = 'P' then .device
  else if c = 'X' ∨ c = '^' ∨ c = '_' then .string
  else if c ≤ '/' then .short
  else .none

def Sequence.past (c : Char) : Sequence → Sequence
  | .none => .none
  | .escape => .ofIntroducer c
  | .short => if c ≤ '/' then .short else .none
  | .control => if c ≤ '?' then .control else .none
  | .command => .command
  | .device =>
    if c ≤ '/' then .deviceShort else if c ≤ '?' then .deviceParameters else .string
  | .deviceParameters =>
    if c ≤ '/' then .deviceShort else if c ≤ ';' then .deviceParameters else .string
  | .deviceShort => if c ≤ '/' then .deviceShort else .string
  | .string => .string

/-- Where a character leaves a sequence that it belongs to. Only a string may end with a character
beyond ASCII; elsewhere such characters are passed over, as controls are. -/
def Sequence.next (c : Char) (sequence : Sequence) : Sequence :=
  if sequence = .command ∧ c = '\x07' then .none
  else if sequence = .string ∧ endsString c then .none
  else if ' ' ≤ c ∧ c < '\x7f' then sequence.past c
  else sequence

/-- The characters that are shown. Layout ends a sequence that is no string. -/
def printableFrom : Sequence → List Char → List Char
  | _, [] => []
  | sequence, c :: rest =>
    if c = '\x1b' then printableFrom .escape rest
    else if c = '\x18' ∨ c = '\x1a' then printableFrom .none rest
    else if !sequence.isString && isLayout c then c :: printableFrom .none rest
    else if sequence = .none ∧ ' ' ≤ c ∧ c ≠ '\x7f' then c :: printableFrom .none rest
    else printableFrom (sequence.next c) rest

def printable (text : String) : String :=
  String.ofList (printableFrom .none text.toList)

end Redline.Text
