import Redline.Json.Print
import Redline.Proofs.Json.Strings

/-! Printed strings against their spelling. A printed string is a literal that stands for the string,
and no control character is in it. -/

namespace Redline.Json

theorem unitValue_hexUnit : ∀ n < 32, unitValue (hexUnit n) = n := by
  decide

theorem all_hexUnit : ∀ n < 32, (hexUnit n).all fun c => (hexValue? c).isSome := by
  decide

theorem toNat_lt_of_control {c : Char} (control : c < ' ') : c.toNat < 32 := by
  have below : c.toNat < ' '.toNat := by
    simpa only [Char.lt_def, UInt32.lt_iff_toNat_lt, Char.toNat_val] using control
  exact below

def Mark.of (c : Char) : Mark :=
  if quote : c = '"' then .short '"' (by decide)
  else if backslash : c = '\\' then .short '\\' (by decide)
  else if c = '\x08' then .short 'b' (by decide)
  else if c = '\x0c' then .short 'f' (by decide)
  else if c = '\n' then .short 'n' (by decide)
  else if c = '\r' then .short 'r' (by decide)
  else if c = '\t' then .short 't' (by decide)
  else if control : c < ' ' then
    .unit (hexUnit c.toNat) rfl (List.all_eq_true.mp (all_hexUnit c.toNat (toNat_lt_of_control control)))
  else .plain c ⟨Char.not_lt.mp control, quote, backslash⟩

theorem Mark.chars_of (c : Char) : (Mark.of c).chars = printChar c := by
  rw [of, printChar]
  split_ifs <;> rfl

def written (text : List Char) : Literal :=
  text.map Mark.of

theorem token_written (text : List Char) : (written text).token = printString text := by
  simp only [written, Literal.token, Literal.chars, printString, List.flatMap_map, Mark.chars_of,
    List.cons_append]

theorem decodeFrom_of (c : Char) (marks : Literal) :
    Literal.decodeFrom none (Mark.of c :: marks) = (Literal.decodeFrom none marks).map (c :: ·) := by
  rw [Mark.of]
  split_ifs with quote backslash backspace feed newline carriage tab control
  · subst quote; rfl
  · subst backslash; rfl
  · subst backspace; rfl
  · subst feed; rfl
  · subst newline; rfl
  · subst carriage; rfl
  · subst tab; rfl
  · have small := toNat_lt_of_control control
    have value := unitValue_hexUnit c.toNat small
    have notTrailing : isTrailing c.toNat = false := by simp [isTrailing]; omega
    have notLeading : isLeading c.toNat = false := by simp [isLeading]; omega
    simp [Literal.decodeFrom, value, notTrailing, notLeading, Char.ofNat_toNat]
  · rfl

theorem decode_written (text : List Char) : (written text).decode = some text := by
  induction text with
  | nil => rfl
  | cons c text ih =>
      rw [written, List.map_cons, Literal.decode, decodeFrom_of]
      rw [Literal.decode, written] at ih
      rw [ih]
      rfl

theorem printString_injective : Function.Injective printString := by
  intro first second same
  rw [← token_written, ← token_written, Literal.token, Literal.token, List.cons.injEq] at same
  have read := readString_chars (written first) []
  rw [same.2, readString_chars, decode_written, decode_written] at read
  simpa using read.symm

/-- Nothing that is written in a string is a control character of JSON. Those are the ones below
the space. -/
theorem Mark.le_of_mem_chars {mark : Mark} {c : Char} (member : c ∈ mark.chars) : ' ' ≤ c := by
  cases mark with
  | plain other raw =>
      obtain rfl : c = other := by simpa [chars] using member
      exact raw.1
  | short letter known =>
      simp only [chars, List.mem_cons, List.not_mem_nil, or_false] at member
      rcases member with rfl | rfl
      · decide
      · revert known
        fun_cases escaped? c <;> first | decide | simp
  | unit digits four hex =>
      simp only [chars, List.mem_cons] at member
      rcases member with rfl | rfl | digit
      · decide
      · decide
      · exact (plain_of_hexValue (hex c digit)).1

theorem le_of_mem_printString {text : List Char} {c : Char} (member : c ∈ printString text) :
    ' ' ≤ c := by
  rw [← token_written, Literal.token, List.mem_cons, List.mem_append, Literal.chars, List.mem_flatMap,
    List.mem_singleton] at member
  rcases member with rfl | ⟨mark, _, member⟩ | rfl
  · decide
  · exact mark.le_of_mem_chars member
  · decide

end Redline.Json
