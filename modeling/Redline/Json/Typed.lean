import Redline.Json.Value

/-! Values of a type that is known beforehand: texts, whole numbers of a range, lists, and records
of named fields. A value of another shape is a fault that says what was found. -/

namespace Redline.Json

/-- The fault of a value that is not of the expected type. A scalar is read first, so that a fault
in it comes before, and the place is behind it. -/
def wrongType {α : Type} (expected : String) (text : List Char) : Except Fault α :=
  match text with
  | [] => faultHere .endInValue []
  | 'n' :: rest => do
    let rest ← readWord ['u', 'l', 'l'] rest
    faultHere (.wrongType .null expected) rest
  | 't' :: rest => do
    let rest ← readWord ['r', 'u', 'e'] rest
    faultHere (.wrongType (.bool true) expected) rest
  | 'f' :: rest => do
    let rest ← readWord ['a', 'l', 's', 'e'] rest
    faultHere (.wrongType (.bool false) expected) rest
  | '-' :: rest => do
    let (number, rest) ← readNumber true rest
    faultHere (.wrongType (found number) expected) rest
  | '"' :: rest => do
    let (string, rest) ← readString rest
    faultHere (.wrongType (.string string) expected) rest
  | '[' :: rest => faultHere (.wrongType .sequence expected) ('[' :: rest)
  | '{' :: rest => faultHere (.wrongType .map expected) ('{' :: rest)
  | c :: rest =>
    if isDigit c then do
      let (number, rest) ← readNumber false (c :: rest)
      faultHere (.wrongType (found number) expected) rest
    else faultAtNext .expectedValue (c :: rest)
where
  found : Number → Found
    | .integer value => .integer value
    | .float value => .float value

def readText : Reader String := fun text =>
  match skipSpaces text with
  | '"' :: rest => do
    let (string, rest) ← readString rest
    return (String.ofList string, rest)
  | text => wrongType "a string" text

structure IntegerRange where
  name : String
  least : Int
  beyond : Int

def IntegerRange.signed64 : IntegerRange := ⟨"i64", -Int.pow 2 63, Int.pow 2 63⟩

def IntegerRange.unsigned32 : IntegerRange := ⟨"u32", 0, Int.pow 2 32⟩

def inRange (range : IntegerRange) : Number × List Char → Except Fault (Int × List Char)
  | (.integer value, rest) =>
    if range.least ≤ value ∧ value < range.beyond then .ok (value, rest)
    else faultHere (.wrongRange value range.name) rest
  | (.float value, rest) => faultHere (.wrongType (.float value) range.name) rest

def readInteger (range : IntegerRange) : Reader Int := fun text =>
  match skipSpaces text with
  | '-' :: rest => readNumber true rest >>= inRange range
  | c :: rest =>
    if isDigit c then readNumber false (c :: rest) >>= inRange range
    else wrongType range.name (c :: rest)
  | [] => wrongType range.name []

def readCount : Reader Nat := fun text => do
  let (value, rest) ← readInteger .unsigned32 text
  return (value.toNat, rest)

def readList {α : Type} (limit : Nat) (read : Reader α) : Reader (List α) := fun text =>
  match skipSpaces text with
  | '[' :: rest => do
    let element (before : List α) : Reader (List α) := fun text => do
      let (value, rest) ← read text
      return (value :: before, rest)
    let (elements, rest) ← readElements .full limit element [] rest
    return (elements.reverse, rest)
  | text => wrongType "a sequence" text

def readOption {α : Type} (read : Reader α) : Reader (Option α) := fun text =>
  match skipSpaces text with
  | 'n' :: rest => do
    let rest ← readWord ['u', 'l', 'l'] rest
    return (none, rest)
  | text => do
    let (value, rest) ← read text
    return (some value, rest)

def readOrDefault {α : Type} [Inhabited α] (read : Reader α) : Reader α := fun text => do
  let (value, rest) ← readOption read text
  return (value.getD default, rest)

structure Field (σ : Type) where
  name : List Char
  read : σ → Reader σ

def Field.of {σ α : Type} (name : String) (read : Reader α) (set : σ → α → σ) : Field σ where
  name := name.toList
  read record text := do
    let (value, rest) ← read text
    return (set record value, rest)

def endFields (text : List Char) : Except Fault (List Char) :=
  match skipSpaces text with
  | [] => faultHere .endInList []
  | ']' :: rest => .ok rest
  | ',' :: rest =>
    match skipSpaces rest with
    | ']' :: rest => faultAtNext .trailingComma (']' :: rest)
    | text => faultAtNext .trailingCharacters text
  | text => faultAtNext .trailingCharacters text

def readOrdered {σ : Type} (place : List Char → Except Fault Next) :
    List (Field σ) → σ → Reader σ
  | [], record, text => do
    let rest ← endFields text
    return (record, rest)
  | field :: fields, record, text => do
    match ← place text with
    | .done rest => return (record, rest)
    | .entry text =>
      let (record, rest) ← field.read record text
      readOrdered (nextElement .full) fields record rest

/-- Where the fault of a repeated field is: behind the spaces after its key, and behind a bracket
there that closes the object. -/
def afterRepeated (text : List Char) : List Char :=
  match skipSpaces text with
  | '}' :: rest => rest
  | text => text

def readField {σ : Type} (limit : Nat) (fields : List (Field σ)) (state : List (List Char) × σ) :
    Reader (List (List Char) × σ) := fun text => do
  let (names, record) := state
  let (key, rest) ← readString text
  match fields.find? fun field => field.name = key with
  | none =>
    let rest ← readColon rest
    let rest ← skipValue limit limit rest
    return (state, rest)
  | some field =>
    if names.contains key then faultHere (.duplicateField key) (afterRepeated rest)
    else
      let rest ← readColon rest
      let (record, rest) ← field.read record rest
      return ((key :: names, record), rest)

/-- Reads a record: an object with its fields under their names, or a list of them in their order.
Fields that are not there are as in `blank`. -/
def readRecord {σ : Type} (name : String) (limit : Nat) (fields : List (Field σ)) (blank : σ) :
    Reader σ := fun text =>
  match skipSpaces text with
  | '{' :: rest => do
    let ((_, record), rest) ← readMembers .full limit (readField limit fields) ([], blank) rest
    return (record, rest)
  | '[' :: rest => readOrdered firstElement fields blank rest
  | text => wrongType s!"struct {name}" text

def readWhole {α : Type} (read : Reader α) (text : List Char) : Except Fault α := do
  let (value, rest) ← read text
  match skipSpaces rest with
  | [] => return value
  | rest => faultAtNext .trailingCharacters rest

end Redline.Json
