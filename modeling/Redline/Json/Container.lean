import Redline.Json.Scan

/-! The entries of lists and objects, read one by one into a state. A limit on their number keeps
the loops finite; the length of the text is a limit that no text reaches. -/

namespace Redline.Json

/-- How closely the place behind a comma is looked at: whether a closing bracket or the end of the text is
told from a missing entry there. -/
inductive Care where
  | full
  | slight
  deriving DecidableEq, Repr

inductive Next where
  | entry (text : List Char)
  | done (rest : List Char)

def firstElement (text : List Char) : Except Fault Next :=
  match skipSpaces text with
  | [] => faultHere .endInList []
  | ']' :: rest => .ok (.done rest)
  | text => .ok (.entry text)

def nextElement (care : Care) (text : List Char) : Except Fault Next :=
  match skipSpaces text with
  | [] => faultHere .endInList []
  | ']' :: rest => .ok (.done rest)
  | ',' :: rest =>
    match care, skipSpaces rest with
    | .full, [] => faultHere .endInValue []
    | .full, ']' :: rest => faultAtNext .trailingComma (']' :: rest)
    | _, text => .ok (.entry text)
  | text => faultAtNext .expectedListEnd text

/-- What comes first in an object. An entry starts behind the quote that opens its key. -/
def firstMember (text : List Char) : Except Fault Next :=
  match skipSpaces text with
  | [] => faultHere .endInObject []
  | '}' :: rest => .ok (.done rest)
  | '"' :: text => .ok (.entry text)
  | text => faultAtNext .keyNotString text

def nextMember (care : Care) (text : List Char) : Except Fault Next :=
  match skipSpaces text with
  | [] => faultHere .endInObject []
  | '}' :: rest => .ok (.done rest)
  | ',' :: rest =>
    match care, skipSpaces rest with
    | _, '"' :: text => .ok (.entry text)
    | .full, [] => faultHere .endInValue []
    | .slight, [] => faultHere .endInObject []
    | .full, '}' :: rest => faultAtNext .trailingComma ('}' :: rest)
    | _, text => faultAtNext .keyNotString text
  | text => faultAtNext .expectedObjectEnd text

def readEntries {σ : Type} (follow : List Char → Except Fault Next) (entry : σ → Reader σ) :
    Nat → σ → Next → Except Fault (σ × List Char)
  | _, state, .done rest => .ok (state, rest)
  | 0, _, .entry text => faultHere .nestedTooDeep text
  | limit + 1, state, .entry text => do
    let (state, rest) ← entry state text
    let next ← follow rest
    readEntries follow entry limit state next

def readElements {σ : Type} (care : Care) (limit : Nat) (element : σ → Reader σ) (state : σ) :
    Reader σ := fun text => do
  let next ← firstElement text
  readEntries (nextElement care) element limit state next

def readMembers {σ : Type} (care : Care) (limit : Nat) (member : σ → Reader σ) (state : σ) :
    Reader σ := fun text => do
  let next ← firstMember text
  readEntries (nextMember care) member limit state next

def readColon (text : List Char) : Except Fault (List Char) :=
  match skipSpaces text with
  | [] => faultHere .endInObject []
  | ':' :: rest => .ok rest
  | text => faultAtNext .expectedColon text

end Redline.Json
