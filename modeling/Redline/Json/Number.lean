import Redline.Json.Scan

/-! Numbers of JSON. Whole numbers of 64 bits are exact. All others are doubles, made from the
digits that fit into 64 bits and a power of ten. -/

namespace Redline.Json

inductive Number where
  | integer (value : Int)
  | float (value : Float)

def gather (value : Nat) : List Char → Nat × Nat
  | [] => (value, 0)
  | digit :: rest =>
    let next := value * 10 + (digit.toNat - '0'.toNat)
    if next < Nat.pow 2 64 then gather next rest else (value, rest.length + 1)

def powerOfTen (exponent : Nat) : Float :=
  Float.ofScientific 1 false exponent

def maxPower : Nat := 308

def scaleDown (x : Float) (power : Nat) : Float :=
  if power ≤ maxPower then x / powerOfTen power
  else if x == 0 then x
  else scaleDown (x / powerOfTen maxPower) (power - maxPower)
termination_by power
decreasing_by simp [maxPower] at *; omega

def scale? (x : Float) (power : Int) : Option Float :=
  if power < 0 then some (scaleDown x (-power).toNat)
  else if power ≤ maxPower then
    let scaled := x * powerOfTen power.toNat
    if scaled.isInf then none else some scaled
  else if x == 0 then some x
  else none

def finish (negative : Bool) (digits : Nat) (power : Int) (rest : List Char) :
    Except Fault (Number × List Char) :=
  match scale? (UInt64.ofNat digits).toFloat power with
  | some x => .ok (.float (if negative then -x else x), rest)
  | none => faultHere .numberOutOfRange rest

def maxExponent : Nat := Nat.pow 2 31 - 1

def exponentValue (value : Nat) : List Char → List Char → Except (List Char) Nat
  | [], _ => .ok value
  | digit :: digits, rest =>
    let next := value * 10 + (digit.toNat - '0'.toNat)
    if maxExponent < next then .error (digits ++ rest) else exponentValue next digits rest

def takeSign : List Char → Bool × List Char
  | '+' :: rest => (false, rest)
  | '-' :: rest => (true, rest)
  | text => (false, text)

/-- Reads an exponent whose letter has been read, and ends the number. An exponent that is too
great makes zero of all numbers if it is negative, and of zero if it is not. -/
def readExponent (negative : Bool) (digits : Nat) (power : Int) (text : List Char) :
    Except Fault (Number × List Char) :=
  let (down, text) := takeSign text
  match text with
  | [] => faultHere .endInValue []
  | c :: _ =>
    if !isDigit c then faultAtNext .invalidNumber text
    else
      let rest := text.dropWhile isDigit
      match exponentValue 0 (text.takeWhile isDigit) rest with
      | .ok exponent => finish negative digits (if down then power - exponent else power + exponent) rest
      | .error left =>
        if digits ≠ 0 ∧ !down then faultHere .numberOutOfRange left
        else .ok (.float (if negative then -0.0 else 0.0), rest)

def isExponent (c : Char) : Bool := c = 'e' || c = 'E'

def readFraction (negative : Bool) (whole : Nat) (power : Int) (text : List Char) :
    Except Fault (Number × List Char) :=
  let fraction := text.takeWhile isDigit
  let rest := text.dropWhile isDigit
  match fraction, rest with
  | [], [] => faultHere .endInValue []
  | [], _ => faultAtNext .invalidNumber text
  | _, _ =>
    let (digits, left) := gather whole fraction
    let power := power - (fraction.length - left : Nat)
    match rest with
    | c :: behind =>
      if isExponent c then readExponent negative digits power behind
      else finish negative digits power rest
    | [] => finish negative digits power []

/-- A whole number as it is: one that does not fit into 64 bits, with its sign, is a double. -/
def wholeNumber (negative : Bool) (value : Nat) : Number :=
  if !negative then .integer value
  else if 0 < value ∧ value ≤ Nat.pow 2 63 then .integer (-value)
  else .float (-(UInt64.ofNat value).toFloat)

def readTail (negative : Bool) (digits left : Nat) (text : List Char) :
    Except Fault (Number × List Char) :=
  match text with
  | '.' :: rest => readFraction negative digits left rest
  | c :: rest =>
    if isExponent c then readExponent negative digits left rest else plain text
  | [] => plain text
where
  plain (text : List Char) : Except Fault (Number × List Char) :=
    if left = 0 then .ok (wholeNumber negative digits, text) else finish negative digits left text

def readNumber (negative : Bool) : Reader Number
  | [] => faultHere .endInValue []
  | '0' :: rest =>
    match rest with
    | c :: _ => if isDigit c then faultAtNext .invalidNumber rest else readTail negative 0 0 rest
    | [] => readTail negative 0 0 rest
  | c :: rest =>
    if isDigit c then
      let text := c :: rest
      let (digits, left) := gather 0 (text.takeWhile isDigit)
      readTail negative digits left (text.dropWhile isDigit)
    else faultAtNext .invalidNumber (c :: rest)

def skipExponent (text : List Char) : Except Fault (List Char) :=
  match (takeSign text).2 with
  | [] => faultHere .invalidNumber []
  | c :: rest =>
    if isDigit c then .ok (rest.dropWhile isDigit) else faultAtNext .invalidNumber (c :: rest)

def skipTail : List Char → Except Fault (List Char)
  | '.' :: rest =>
    match rest with
    | [] => faultHere .invalidNumber []
    | c :: _ =>
      if !isDigit c then faultAtNext .invalidNumber rest
      else match rest.dropWhile isDigit with
        | c :: behind => if isExponent c then skipExponent behind else .ok (c :: behind)
        | [] => .ok []
  | c :: rest => if isExponent c then skipExponent rest else .ok (c :: rest)
  | [] => .ok []

def skipNumber : List Char → Except Fault (List Char)
  | [] => faultHere .invalidNumber []
  | '0' :: rest =>
    match rest with
    | c :: _ => if isDigit c then faultAtNext .invalidNumber rest else skipTail rest
    | [] => skipTail rest
  | c :: rest =>
    if isDigit c then skipTail (rest.dropWhile isDigit) else faultAtNext .invalidNumber (c :: rest)

end Redline.Json
