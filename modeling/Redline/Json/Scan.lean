import Redline.Json.Fault

/-! The tokens of JSON. Every reader takes the characters that are left and answers with those
that are left after it. -/

namespace Redline.Json

abbrev Reader (α : Type) := List Char → Except Fault (α × List Char)

def faultHere {α : Type} (cause : Cause) (rest : List Char) : Except Fault α :=
  .error ⟨cause, rest, 0⟩

def faultAtNext {α : Type} (cause : Cause) (rest : List Char) : Except Fault α :=
  .error ⟨cause, rest, 1⟩

def isSpace (c : Char) : Bool :=
  c = ' ' || c = '\t' || c = '\n' || c = '\r'

def skipSpaces (text : List Char) : List Char :=
  text.dropWhile isSpace

def readWord : List Char → List Char → Except Fault (List Char)
  | [], text => .ok text
  | _ :: _, [] => faultHere .endInValue []
  | expected :: word, c :: rest =>
    if c = expected then readWord word rest else faultAtNext .expectedWord (c :: rest)

def hexValue? (c : Char) : Option Nat :=
  if '0' ≤ c ∧ c ≤ '9' then some (c.toNat - '0'.toNat)
  else if 'a' ≤ c ∧ c ≤ 'f' then some (c.toNat - 'a'.toNat + 10)
  else if 'A' ≤ c ∧ c ≤ 'F' then some (c.toNat - 'A'.toNat + 10)
  else none

/-- Checks that four digits in base sixteen come next. Four bytes are looked at, whatever
characters they belong to. -/
def checkHex (text : List Char) : Except Fault Unit :=
  if byteLength (text.take 4) < 4 then faultHere .endInString []
  else if (text.take 4).all fun c => (hexValue? c).isSome then .ok ()
  else .error ⟨.invalidEscape, text, 4⟩

def escaped? : Char → Option Char
  | '"' => some '"'
  | '\\' => some '\\'
  | '/' => some '/'
  | 'b' => some '\x08'
  | 'f' => some '\x0c'
  | 'n' => some '\n'
  | 'r' => some '\r'
  | 't' => some '\t'
  | _ => none

def isLeading (unit : Nat) : Bool := 0xD800 ≤ unit && unit ≤ 0xDBFF

def isTrailing (unit : Nat) : Bool := 0xDC00 ≤ unit && unit ≤ 0xDFFF

def pairedChar (leading trailing : Nat) : Char :=
  Char.ofNat ((leading - 0xD800) * 0x400 + (trailing - 0xDC00) + 0x10000)

inductive Pending where
  | nothing
  | escape
  | digits (left value : Nat) (leading : Option Nat)
  | backslash (leading : Nat)
  | letter (leading : Nat)

abbrev Progress := Pending × Option Char

def afterUnit (unit : Nat) (leading : Option Nat) (rest : List Char) : Except Fault Progress :=
  match leading with
  | some first =>
    if isTrailing unit then .ok (.nothing, some (pairedChar first unit))
    else faultHere .loneSurrogate rest
  | none =>
    if isTrailing unit then faultHere .loneSurrogate rest
    else if isLeading unit then .ok (.backslash unit, none)
    else .ok (.nothing, some (Char.ofNat unit))

def advance (pending : Pending) (c : Char) (rest : List Char) : Except Fault Progress :=
  match pending with
  | .nothing =>
    if c = '\\' then .ok (.escape, none)
    else if c < ' ' then faultAtNext .controlCharacter (c :: rest)
    else .ok (.nothing, some c)
  | .escape =>
    if c = 'u' then do
      checkHex rest
      return (.digits 4 0 none, none)
    else match escaped? c with
      | some escaped => .ok (.nothing, some escaped)
      | none => faultAtNext .invalidEscape (c :: rest)
  | .digits left value leading =>
    let unit := value * 16 + (hexValue? c).getD 0
    if left ≤ 1 then afterUnit unit leading rest else .ok (.digits (left - 1) unit leading, none)
  | .backslash leading =>
    if c = '\\' then .ok (.letter leading, none) else faultAtNext .endOfHexEscape (c :: rest)
  | .letter leading =>
    if c = 'u' then do
      checkHex rest
      return (.digits 4 0 (some leading), none)
    else faultAtNext .endOfHexEscape (c :: rest)

def readStringFrom (pending : Pending) (read : List Char) : Reader (List Char)
  | [] => faultHere .endInString []
  | c :: rest =>
    match pending, c with
    | .nothing, '"' => .ok (read.reverse, rest)
    | _, _ => do
      let (pending, done) ← advance pending c rest
      readStringFrom pending (done.toList ++ read) rest

def readString : Reader (List Char) :=
  readStringFrom .nothing []

/-- Passes over a string whose opening quote has been read. Escapes of code units are checked for
their digits alone. -/
def skipString : List Char → Except Fault (List Char)
  | [] => faultHere .endInString []
  | '"' :: rest => .ok rest
  | '\\' :: [] => faultHere .endInString []
  | '\\' :: c :: rest =>
    if c = 'u' then
      match checkHex rest with
      | .ok () => skipString rest
      | .error fault => .error fault
    else if (escaped? c).isSome then skipString rest
    else faultAtNext .invalidEscape (c :: rest)
  | c :: rest => if c < ' ' then faultHere .controlCharacter (c :: rest) else skipString rest

def isDigit (c : Char) : Bool := '0' ≤ c && c ≤ '9'

end Redline.Json
