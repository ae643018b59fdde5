import Redline.Proofs.Text.Encoding
import Redline.Proofs.Text.Utf8

/-! Where bytes stop being UTF-8. They begin with a longest text, and its length is the index of the
fault; behind it either all bytes are the beginning of a character, or the first ones are wrong. -/

namespace Redline.Text

def encoded (chars : List Char) : List UInt8 :=
  chars.flatMap String.utf8EncodeChar

theorem encoded_cons (char : Char) (chars : List Char) :
    encoded (char :: chars) = String.utf8EncodeChar char ++ encoded chars := by
  rw [encoded, List.flatMap_cons, encoded]

theorem toList_data_inj {bytes other : ByteArray} :
    bytes.data.toList = other.data.toList ↔ bytes = other := by
  rw [Array.toList_inj, ← ByteArray.ext_iff]

theorem toList_toUTF8 (text : String) : text.toUTF8.data.toList = encoded text.toList := by
  rw [String.toUTF8_eq_toByteArray, ← String.utf8Encode_toList, List.utf8Encode, List.toList_data_toByteArray,
    encoded]

theorem size_toUTF8 (text : String) : text.toUTF8.size = (encoded text.toList).length := by
  rw [← toList_toUTF8, Array.length_toList, ByteArray.size_data]

theorem toUTF8_append_eq_iff {text : String} {rest bytes : ByteArray} :
    text.toUTF8 ++ rest = bytes ↔ encoded text.toList ++ rest.data.toList = bytes.data.toList := by
  rw [← toList_toUTF8, ← toList_data_inj, ByteArray.data_append, Array.toList_append]

section Decoding

variable {bytes : ByteArray} {start : Nat} {char : Char}

theorem extract_eq_drop (bytes : ByteArray) (start : Nat) :
    bytes.extract start bytes.size = (bytes.data.toList.drop start).toByteArray := by
  rw [← toList_data_inj]
  simp [List.take_of_length_le]

theorem utf8DecodeChar?_eq_some_iff :
    bytes.utf8DecodeChar? start = some char ↔
      String.utf8EncodeChar char <+: bytes.data.toList.drop start := by
  rw [ByteArray.utf8DecodeChar?_eq_utf8DecodeChar?_extract, extract_eq_drop]
  constructor
  · intro decoded
    obtain ⟨rest, split⟩ := ByteArray.exists_of_utf8DecodeChar?_eq_some decoded
    have lists := congrArg (fun bytes => bytes.data.toList) split
    refine ⟨rest.data.toList, ?_⟩
    simpa using lists.symm
  · rintro ⟨rest, split⟩
    rw [← split, List.toByteArray_append, ByteArray.utf8DecodeChar?_utf8EncodeChar_append]

theorem encoding_unique {bytes : List UInt8} {char other : Char}
    (begins : String.utf8EncodeChar char <+: bytes) (begins' : String.utf8EncodeChar other <+: bytes) :
    char = other := by
  have decodes (char : Char) := @utf8DecodeChar?_eq_some_iff bytes.toByteArray 0 char
  simp only [List.toList_data_toByteArray, List.drop_zero] at decodes
  exact Option.some.inj (((decodes char).mpr begins).symm.trans ((decodes other).mpr begins'))

theorem noCharacter_iff :
    NoCharacter (bytes.data.toList.drop start) ↔ bytes.utf8DecodeChar? start = none := by
  rw [Option.eq_none_iff_forall_ne_some]
  exact forall_congr' fun char => not_congr utf8DecodeChar?_eq_some_iff.symm

theorem prefix_of_encoded {chars other : List Char} {rest more : List UInt8} (stops : NoCharacter rest)
    (same : encoded chars ++ rest = encoded other ++ more) : other <+: chars := by
  induction other generalizing chars with
  | nil => exact List.nil_prefix
  | cons char other ih =>
      rw [encoded_cons, List.append_assoc] at same
      cases chars with
      | nil => exact absurd ⟨_, same.symm⟩ (stops char)
      | cons first chars =>
          rw [encoded_cons, List.append_assoc] at same
          obtain rfl := encoding_unique ⟨_, same⟩ (List.prefix_append _ _)
          obtain ⟨left, whole⟩ := ih (List.append_cancel_left same)
          exact ⟨left, by rw [List.cons_append, whole]⟩

theorem wholeEnd_encoded (bytes : ByteArray) (start : Nat) :
    ∃ chars, bytes.data.toList.drop start =
        encoded chars ++ bytes.data.toList.drop (wholeEnd bytes start) ∧
      wholeEnd bytes start = start + (encoded chars).length ∧
      NoCharacter (bytes.data.toList.drop (wholeEnd bytes start)) := by
  fun_induction wholeEnd bytes start with
  | case1 start whole ih =>
      obtain ⟨chars, split, ends, stops⟩ := ih
      obtain ⟨rest, begins⟩ := utf8DecodeChar?_eq_some_iff.mp (Option.some_get whole).symm
      have later : bytes.data.toList.drop (start + (bytes.utf8DecodeChar start whole).utf8Size) = rest := by
        rw [← List.drop_drop, ← begins, ← String.length_utf8EncodeChar]
        exact List.drop_left
      refine ⟨bytes.utf8DecodeChar start whole :: chars, ?_, ?_, stops⟩
      · rw [encoded_cons, List.append_assoc, ← split, later, ← begins]
        rfl
      · rw [ends, encoded_cons, List.length_append, String.length_utf8EncodeChar, Nat.add_assoc]
  | case2 start stuck =>
      refine ⟨[], rfl, rfl, noCharacter_iff.mpr ?_⟩
      simpa using stuck

end Decoding

/-- Bytes begin with a text, and with none that is longer. -/
structure LongestText (bytes : ByteArray) (text : String) (rest : ByteArray) : Prop where
  split : text.toUTF8 ++ rest = bytes
  longest : ∀ (other : String) (more : ByteArray), other.toUTF8 ++ more = bytes →
    other.toUTF8.size ≤ text.toUTF8.size

inductive Misencoded (bytes : ByteArray) : String → Prop
  | cut {text : String} {rest : ByteArray} : LongestText bytes text rest →
      rest.data.toList ≠ [] → Begins rest.data.toList →
      Misencoded bytes s!"incomplete utf-8 byte sequence from index {text.toUTF8.size}"
  | wrong {text : String} {rest : ByteArray} {length : Nat} : LongestText bytes text rest →
      Breaks rest.data.toList length →
      Misencoded bytes s!"invalid utf-8 sequence of {length} bytes from index {text.toUTF8.size}"

section Faults

variable {bytes rest : ByteArray} {text : String}

theorem exists_longestText (bytes : ByteArray) : ∃ text rest,
    LongestText bytes text rest ∧ NoCharacter rest.data.toList ∧
      utf8Fault bytes = ⟨text.toUTF8.size, wrongLength rest.data.toList⟩ := by
  obtain ⟨chars, split, ends, stops⟩ := wholeEnd_encoded bytes 0
  rw [List.drop_zero] at split
  rw [Nat.zero_add] at ends
  refine ⟨String.ofList chars, (bytes.data.toList.drop (wholeEnd bytes 0)).toByteArray, ⟨?_, ?_⟩, ?_, ?_⟩
  · rw [toUTF8_append_eq_iff, String.toList_ofList, List.toList_data_toByteArray, ← split]
  · intro other more same
    rw [toUTF8_append_eq_iff, split] at same
    obtain ⟨left, whole⟩ := prefix_of_encoded stops same.symm
    rw [size_toUTF8, size_toUTF8, String.toList_ofList, ← whole, encoded, encoded, List.flatMap_append,
      List.length_append]
    exact Nat.le_add_right _ _
  · rwa [List.toList_data_toByteArray]
  · rw [utf8Fault, List.toList_data_toByteArray, size_toUTF8, String.toList_ofList, ← ends]

theorem LongestText.unique {text' : String} {rest' : ByteArray} (longest : LongestText bytes text rest)
    (longest' : LongestText bytes text' rest') : text = text' ∧ rest = rest' := by
  have sizes := Nat.le_antisymm (longest'.longest _ _ longest.split) (longest.longest _ _ longest'.split)
  have splits := (toUTF8_append_eq_iff.mp longest.split).trans (toUTF8_append_eq_iff.mp longest'.split).symm
  rw [size_toUTF8, size_toUTF8] at sizes
  obtain ⟨texts, rests⟩ := List.append_inj splits sizes
  rw [← toList_toUTF8, ← toList_toUTF8, toList_data_inj] at texts
  exact ⟨String.toByteArray_inj.mp texts, toList_data_inj.mp rests⟩

theorem LongestText.undecodable (longest : LongestText bytes text rest) (more : rest.data.toList ≠ []) :
    Undecodable bytes := by
  intro other whole
  have bound := longest.longest other .empty (by rw [whole, ByteArray.append_empty])
  rw [whole, ← longest.split, ByteArray.size_append] at bound
  have : rest.size = 0 := by omega
  rw [← ByteArray.size_data, Array.size_eq_zero_iff] at this
  exact more (by rw [this])

theorem misencoded_iff {cause : String} :
    Misencoded bytes cause ↔ Undecodable bytes ∧ cause = (utf8Fault bytes).message := by
  obtain ⟨text, rest, longest, stops, fault⟩ := exists_longestText bytes
  rw [fault]
  constructor
  · intro misencoded
    cases misencoded with
    | cut longest' more begins =>
        obtain ⟨rfl, rfl⟩ := longest.unique longest'
        rw [(stops.wrongLength_eq_none_iff more).mpr begins]
        exact ⟨longest.undecodable more, rfl⟩
    | wrong longest' breaks =>
        obtain ⟨rfl, rfl⟩ := longest.unique longest'
        rw [stops.wrongLength_eq_some_iff.mpr breaks]
        exact ⟨longest.undecodable breaks.ne_nil, rfl⟩
  · rintro ⟨noText, rfl⟩
    have more : rest.data.toList ≠ [] := by
      intro nothing
      have whole := toUTF8_append_eq_iff.mp longest.split
      rw [nothing, List.append_nil, ← toList_toUTF8, toList_data_inj] at whole
      exact noText text whole
    cases wrong : wrongLength rest.data.toList with
    | none => exact .cut longest more ((stops.wrongLength_eq_none_iff more).mp wrong)
    | some length => exact .wrong longest (stops.wrongLength_eq_some_iff.mp wrong)

end Faults

theorem lossyChars_encoded {bytes : ByteArray} {chars : List Char} {start : Nat}
    (here : bytes.data.toList.drop start = encoded chars) : lossyChars bytes start = chars := by
  induction chars generalizing start with
  | nil =>
      have ended := List.drop_eq_nil_iff.mp here
      rw [Array.length_toList, ByteArray.size_data] at ended
      have stuck : bytes.utf8DecodeChar? start = none := by
        rw [← noCharacter_iff, here]
        exact noCharacter_nil
      rw [lossyChars, dif_neg (by simp [stuck]), if_pos ended]
  | cons char chars ih =>
      have decoded : bytes.utf8DecodeChar? start = some char := by
        rw [utf8DecodeChar?_eq_some_iff, here, encoded_cons]
        exact List.prefix_append _ _
      have later : bytes.data.toList.drop (start + char.utf8Size) = encoded chars := by
        rw [← List.drop_drop, here, encoded_cons, ← String.length_utf8EncodeChar]
        exact List.drop_left
      rw [lossyChars, dif_pos (by simp [decoded])]
      simp only [ByteArray.utf8DecodeChar, decoded, Option.get_some, ih later]

theorem lossy_toUTF8 (text : String) : lossy text.toUTF8 = text := by
  have here : text.toUTF8.data.toList.drop 0 = encoded text.toList := toList_toUTF8 text
  rw [lossy, lossyChars_encoded here, String.ofList_toList]

end Redline.Text
