/-! Bytes read as UTF-8: either the text that they encode, or where and how they stop
being UTF-8. -/

namespace Redline.Text

structure Utf8Fault where
  index : Nat
  length : Option Nat
  deriving DecidableEq, Repr

/-- The bytes that may follow a first byte, as one closed range for each. A byte that cannot
be first has none. -/
def continuations (first : UInt8) : List (UInt8 × UInt8) :=
  if first < 0xC2 then []
  else if first < 0xE0 then [(0x80, 0xBF)]
  else if first = 0xE0 then [(0xA0, 0xBF), (0x80, 0xBF)]
  else if first = 0xED then [(0x80, 0x9F), (0x80, 0xBF)]
  else if first < 0xF0 then [(0x80, 0xBF), (0x80, 0xBF)]
  else if first = 0xF0 then [(0x90, 0xBF), (0x80, 0xBF), (0x80, 0xBF)]
  else if first < 0xF4 then [(0x80, 0xBF), (0x80, 0xBF), (0x80, 0xBF)]
  else if first = 0xF4 then [(0x80, 0x8F), (0x80, 0xBF), (0x80, 0xBF)]
  else []

def brokenLength (taken : Nat) : List (UInt8 × UInt8) → List UInt8 → Option Nat
  | _ :: _, [] => none
  | (low, high) :: ranges, byte :: bytes =>
    if low ≤ byte ∧ byte ≤ high then brokenLength (taken + 1) ranges bytes else some taken
  | [], _ => some taken

def wholeEnd (bytes : ByteArray) (start : Nat) : Nat :=
  if whole : (bytes.utf8DecodeChar? start).isSome then
    wholeEnd bytes (start + (bytes.utf8DecodeChar start whole).utf8Size)
  else start
termination_by bytes.size - start
decreasing_by
  have := ByteArray.add_utf8Size_utf8DecodeChar_le_size (h := whole)
  have := (bytes.utf8DecodeChar start whole).utf8Size_pos
  omega

def wrongLength : List UInt8 → Option Nat
  | [] => none
  | first :: rest => brokenLength 1 (continuations first) rest

def utf8Fault (bytes : ByteArray) : Utf8Fault :=
  let index := wholeEnd bytes 0
  ⟨index, wrongLength (bytes.data.toList.drop index)⟩

def decode (bytes : ByteArray) : Except Utf8Fault String :=
  match String.fromUTF8? bytes with
  | some text => .ok text
  | none => .error (utf8Fault bytes)

theorem le_of_brokenLength {taken length : Nat} {ranges : List (UInt8 × UInt8)} {bytes : List UInt8}
    (broken : brokenLength taken ranges bytes = some length) : taken ≤ length := by
  fun_induction brokenLength taken ranges bytes with
  | case1 => cases broken
  | case2 taken low high ranges byte bytes within ih => exact Nat.le_of_succ_le (ih broken)
  | case3 | case4 => exact Nat.le_of_eq (Option.some.inj broken)

theorem wrongLength_pos {length : Nat} : {bytes : List UInt8} → wrongLength bytes = some length →
    0 < length
  | _ :: _, wrong => le_of_brokenLength wrong

/-- The characters of the bytes from `start` on. For every run of wrong bytes there is one
replacement character. -/
def lossyChars (bytes : ByteArray) (start : Nat) : List Char :=
  if whole : (bytes.utf8DecodeChar? start).isSome then
    let char := bytes.utf8DecodeChar start whole
    char :: lossyChars bytes (start + char.utf8Size)
  else if bytes.size ≤ start then []
  else
    match wrong : wrongLength (bytes.data.toList.drop start) with
    | some length =>
      have := wrongLength_pos wrong
      '\uFFFD' :: lossyChars bytes (start + length)
    | none => ['\uFFFD']
termination_by bytes.size - start
decreasing_by
  · have := ByteArray.add_utf8Size_utf8DecodeChar_le_size (h := whole)
    have := (bytes.utf8DecodeChar start whole).utf8Size_pos
    omega
  · omega

def lossy (bytes : ByteArray) : String :=
  String.ofList (lossyChars bytes 0)

def Utf8Fault.message (fault : Utf8Fault) : String :=
  match fault.length with
  | some length => s!"invalid utf-8 sequence of {length} bytes from index {fault.index}"
  | none => s!"incomplete utf-8 byte sequence from index {fault.index}"

end Redline.Text
