import Redline.Json.Container
import Redline.Json.Number

/-! JSON values of any shape: reading them, and passing over them. -/

namespace Redline.Json

/-- A value. The members of an object are in the order of their keys, each key once. -/
inductive Value where
  | null
  | bool (value : Bool)
  | number (value : Number)
  | string (value : List Char)
  | array (elements : List Value)
  | object (members : List (List Char × Value))

def insertMember (key : List Char) (value : Value) :
    List (List Char × Value) → List (List Char × Value)
  | [] => [(key, value)]
  | (first, held) :: members =>
    if key = first then (key, value) :: members
    else if key < first then (key, value) :: (first, held) :: members
    else (first, held) :: insertMember key value members

def readValue (limit : Nat) (room : Nat) (text : List Char) : Except Fault (Value × List Char) :=
  match skipSpaces text with
  | [] => faultHere .endInValue []
  | 'n' :: rest => do
    let rest ← readWord ['u', 'l', 'l'] rest
    return (.null, rest)
  | 't' :: rest => do
    let rest ← readWord ['r', 'u', 'e'] rest
    return (.bool true, rest)
  | 'f' :: rest => do
    let rest ← readWord ['a', 'l', 's', 'e'] rest
    return (.bool false, rest)
  | '-' :: rest => do
    let (number, rest) ← readNumber true rest
    return (.number number, rest)
  | '"' :: rest => do
    let (string, rest) ← readString rest
    return (.string string, rest)
  | '[' :: rest =>
    match room with
    | 0 => faultAtNext .nestedTooDeep ('[' :: rest)
    | room + 1 => do
      let element (read : List Value) : Reader (List Value) := fun text => do
        let (value, rest) ← readValue limit room text
        return (value :: read, rest)
      let (read, rest) ← readElements .full limit element [] rest
      return (.array read.reverse, rest)
  | '{' :: rest =>
    match room with
    | 0 => faultAtNext .nestedTooDeep ('{' :: rest)
    | room + 1 => do
      let member (read : List (List Char × Value)) : Reader (List (List Char × Value)) := fun text => do
        let (key, rest) ← readString text
        let rest ← readColon rest
        let (value, rest) ← readValue limit room rest
        return (insertMember key value read, rest)
      let (read, rest) ← readMembers .full limit member [] rest
      return (.object read, rest)
  | c :: rest =>
    if isDigit c then do
      let (number, rest) ← readNumber false (c :: rest)
      return (.number number, rest)
    else faultAtNext .expectedValue (c :: rest)

def skipValue (limit : Nat) (room : Nat) (text : List Char) : Except Fault (List Char) :=
  match skipSpaces text with
  | [] => faultHere .endInValue []
  | 'n' :: rest => readWord ['u', 'l', 'l'] rest
  | 't' :: rest => readWord ['r', 'u', 'e'] rest
  | 'f' :: rest => readWord ['a', 'l', 's', 'e'] rest
  | '-' :: rest => skipNumber rest
  | '"' :: rest => skipString rest
  | '[' :: rest =>
    match room with
    | 0 => faultAtNext .nestedTooDeep ('[' :: rest)
    | room + 1 => do
      let element (_ : Unit) : Reader Unit := fun text => do
        let rest ← skipValue limit room text
        return ((), rest)
      let ((), rest) ← readElements .slight limit element () rest
      return rest
  | '{' :: rest =>
    match room with
    | 0 => faultAtNext .nestedTooDeep ('{' :: rest)
    | room + 1 => do
      let member (_ : Unit) : Reader Unit := fun text => do
        let rest ← skipString text
        let rest ← readColon rest
        let rest ← skipValue limit room rest
        return ((), rest)
      let ((), rest) ← readMembers .slight limit member () rest
      return rest
  | c :: rest => if isDigit c then skipNumber (c :: rest) else faultAtNext .expectedValue (c :: rest)

end Redline.Json
