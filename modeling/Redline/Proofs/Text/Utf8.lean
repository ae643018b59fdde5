import Redline.Text.Utf8

/-! Bytes and the texts that they encode. -/

namespace Redline.Text

def Undecodable (bytes : ByteArray) : Prop :=
  ∀ text : String, text.toUTF8 ≠ bytes

variable {bytes : ByteArray}

theorem fromUTF8?_eq_some_iff {text : String} :
    String.fromUTF8? bytes = some text ↔ text.toUTF8 = bytes := by
  constructor
  · intro decoded
    rw [String.fromUTF8?] at decoded
    split at decoded
    next valid =>
      cases decoded
      rfl
    next => cases decoded
  · rintro rfl
    rw [String.toUTF8_eq_toByteArray, String.fromUTF8?, dif_pos text.isValidUTF8]
    rfl

theorem decode_eq_ok_iff {text : String} : decode bytes = .ok text ↔ text.toUTF8 = bytes := by
  rw [← fromUTF8?_eq_some_iff, decode]
  cases String.fromUTF8? bytes <;> simp

theorem decode_of_undecodable (noText : Undecodable bytes) : decode bytes = .error (utf8Fault bytes) := by
  rw [decode]
  split
  next text decoded => exact absurd (fromUTF8?_eq_some_iff.mp decoded) (noText text)
  next => rfl

theorem undecodable_or_exists (bytes : ByteArray) :
    Undecodable bytes ∨ ∃ text : String, text.toUTF8 = bytes := by
  by_cases decodable : ∃ text : String, text.toUTF8 = bytes
  · exact .inr decodable
  · exact .inl (not_exists.mp decodable)

end Redline.Text
