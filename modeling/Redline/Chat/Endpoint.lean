/-! Addresses that requests are sent to. -/

namespace Redline

inductive AddressFault where
  | empty
  | tooLong
  | schemeTooLong
  | invalidCharacter
  | invalidAuthority
  | invalidFormat
  deriving DecidableEq, Repr

def AddressFault.message : AddressFault → String
  | .empty => "empty string"
  | .tooLong => "uri too long"
  | .schemeTooLong => "scheme too long"
  | .invalidCharacter => "invalid uri character"
  | .invalidAuthority => "invalid authority"
  | .invalidFormat => "invalid format"

structure Endpoint where
  scheme : Option (List Char)
  authority : List Char
  path : List Char
  deriving DecidableEq, Repr

namespace Endpoint

def maxLength : Nat := 65534

def maxScheme : Nat := 64

def isAlphanumeric (c : Char) : Bool :=
  ('0' ≤ c && c ≤ '9') || ('A' ≤ c && c ≤ 'Z') || ('a' ≤ c && c ≤ 'z')

def isSchemeChar (c : Char) : Bool :=
  isAlphanumeric c || ['+', '-', '.', '~'].contains c

def endsAuthority (c : Char) : Bool :=
  ['/', '?', '#'].contains c

def isAuthorityChar (c : Char) : Bool :=
  isAlphanumeric c || "!$&'()*+,-.:;=@[]_~%".toList.contains c

/-- Characters of a path. What ought to be escaped, but is often sent as it is, passes. -/
def isPathChar (c : Char) : Bool :=
  c = '!' || ('$' ≤ c && c ≤ ';') || c = '=' || ('@' ≤ c && c ≤ '_') || ('a' ≤ c && c ≤ 'z') ||
    ['"', '{', '|', '}', '~'].contains c || '\x7f' < c

def isQueryChar (c : Char) : Bool :=
  c = '!' || ('$' ≤ c && c ≤ ';') || c = '=' || ('?' ≤ c && c ≠ '\x7f')

/-- What has been seen of an authority. User and password, and an address in brackets, may hold
more colons than one, and escapes; what comes behind them starts anew. -/
structure Seen where
  colons : Nat := 0
  opened : Bool := false
  closed : Bool := false
  percent : Bool := false
  afterUser : Bool := false

def Seen.next (seen : Seen) (c : Char) : Except AddressFault Seen :=
  let seen' := { seen with afterUser := false }
  match c with
  | ':' => if 8 ≤ seen.colons then .error .invalidAuthority else .ok { seen' with colons := seen.colons + 1 }
  | '[' =>
    if seen.percent ∨ seen.opened then .error .invalidAuthority else .ok { seen' with opened := true }
  | ']' =>
    if !seen.opened ∨ seen.closed then .error .invalidAuthority
    else .ok { seen' with closed := true, colons := 0, percent := false }
  | '@' => .ok { seen' with afterUser := true, colons := 0, percent := false }
  | '%' => .ok { seen' with percent := true }
  | _ => if isAuthorityChar c then .ok seen' else .error .invalidCharacter

def Seen.complete (seen : Seen) : Bool :=
  seen.opened == seen.closed && seen.colons ≤ 1 && !seen.afterUser && !seen.percent

def splitAuthority (text : List Char) : Except AddressFault (List Char × List Char) := do
  if text = [] then throw .empty
  let authority := text.takeWhile fun c => !endsAuthority c
  let seen ← authority.foldlM Seen.next {}
  if seen.complete then return (authority, text.drop authority.length) else throw .invalidAuthority

def readPath (text : List Char) : Except AddressFault (List Char) :=
  let path := text.takeWhile fun c => c ≠ '?' ∧ c ≠ '#'
  if !path.all isPathChar then .error .invalidCharacter
  else match text.drop path.length with
    | '?' :: rest =>
      let query := rest.takeWhile (· ≠ '#')
      if query.all isQueryChar then .ok (path ++ '?' :: query) else .error .invalidCharacter
    | _ => .ok path

/-- Splits a scheme from what follows its colon and slashes. A text of three characters has
none. -/
def splitScheme (text : List Char) : Except AddressFault (Option (List Char) × List Char) :=
  let scheme := text.takeWhile isSchemeChar
  match text.drop scheme.length with
  | ':' :: '/' :: '/' :: rest =>
    if text.length ≤ 3 then .ok (none, text)
    else if maxScheme < scheme.length then .error .schemeTooLong
    else .ok (some scheme, rest)
  | _ => .ok (none, text)

def readFull (text : List Char) : Except AddressFault Endpoint := do
  let (scheme, rest) ← splitScheme text
  let (authority, behind) ← splitAuthority rest
  match scheme with
  | none => if behind = [] then return ⟨none, authority, []⟩ else throw .invalidFormat
  | some _ =>
    if authority = [] then throw .invalidFormat
    return ⟨scheme, authority, ← readPath behind⟩

def ofChars (text : List Char) : Except AddressFault Endpoint := do
  if maxLength < (String.ofList text).utf8ByteSize then throw .tooLong
  match text with
  | [] => throw .empty
  | ['/'] | ['*'] => return ⟨none, [], text⟩
  | '/' :: _ => return ⟨none, [], ← readPath text⟩
  | [c] =>
    let (authority, _) ← splitAuthority [c]
    if authority = [] then throw .invalidCharacter else return ⟨none, authority, []⟩
  | _ => readFull text

def knownSchemes : List String :=
  ["http", "https", "socks", "socks4", "socks4a", "socks5"]

def text (endpoint : Endpoint) : String :=
  String.ofList (endpoint.authority ++ endpoint.path)

def refusal (endpoint : Endpoint) : Option String :=
  match endpoint.scheme with
  | none => some s!"bad uri: {endpoint.text} is missing scheme"
  | some scheme =>
    if knownSchemes.contains (String.ofList (scheme.map Char.toLower)) then none
    else some s!"bad uri: unknown scheme: {String.ofList scheme}"

end Endpoint

end Redline
