import Mathlib.Data.List.Forall2
import Redline.Text.Utf8

/-! The bytes of a character. Its first byte says how many follow it and in which ranges they lie, so
that no number is longer than it has to be, and each is a character's. What a character begins with,
and what goes wrong in it, is read off these ranges. -/

namespace Redline.Text

def Within (range : UInt8 × UInt8) (byte : UInt8) : Prop :=
  range.1 ≤ byte ∧ byte ≤ range.2

abbrev Fits (ranges : List (UInt8 × UInt8)) (bytes : List UInt8) : Prop :=
  List.Forall₂ Within ranges bytes

abbrev freeRange : UInt8 × UInt8 :=
  (0x80, 0xBF)

theorem within_freeRange {byte : UInt8} :
    Within freeRange byte ↔ 0x80 ≤ byte.toNat ∧ byte.toNat ≤ 0xBF :=
  Iff.rfl

theorem within_second {few many : Prop} [Decidable few] [Decidable many] {low high second : UInt8} :
    Within (if few then low else 0x80, if many then high else 0xBF) second ↔
      ((few → low.toNat ≤ second.toNat) ∧ (¬ few → 0x80 ≤ second.toNat)) ∧
        (many → second.toNat ≤ high.toNat) ∧ (¬ many → second.toNat ≤ 0xBF) := by
  rw [Within, UInt8.le_iff_toNat_le, UInt8.le_iff_toNat_le]
  split <;> split <;> simp_all

/-! ### The ranges by first byte -/

section Ranges

variable {first : UInt8}

theorem continuations_two (low : 0xC2 ≤ first.toNat) (high : first.toNat ≤ 0xDF) :
    continuations first = [freeRange] := by
  simp only [continuations, UInt8.lt_iff_toNat_lt, UInt8.reduceToNat]
  rw [if_neg (by omega), if_pos (by omega)]

theorem continuations_three (low : 0xE0 ≤ first.toNat) (high : first.toNat ≤ 0xEF) :
    continuations first =
      [(if first.toNat = 0xE0 then 0xA0 else 0x80, if first.toNat = 0xED then 0x9F else 0xBF),
        freeRange] := by
  simp only [continuations, UInt8.lt_iff_toNat_lt, ← UInt8.toNat_inj, UInt8.reduceToNat]
  grind

theorem continuations_four (low : 0xF0 ≤ first.toNat) (high : first.toNat ≤ 0xF4) :
    continuations first =
      [(if first.toNat = 0xF0 then 0x90 else 0x80, if first.toNat = 0xF4 then 0x8F else 0xBF),
        freeRange, freeRange] := by
  simp only [continuations, UInt8.lt_iff_toNat_lt, ← UInt8.toNat_inj, UInt8.reduceToNat]
  grind

theorem continuations_none (out : first.toNat < 0xC2 ∨ 0xF4 < first.toNat) : continuations first = [] := by
  simp only [continuations, UInt8.lt_iff_toNat_lt, ← UInt8.toNat_inj, UInt8.reduceToNat]
  grind

theorem continuations_inhabited (first : UInt8) :
    ∀ range ∈ continuations first, ∃ byte, Within range byte := by
  intro range member
  refine ⟨range.1, UInt8.le_refl _, ?_⟩
  rw [continuations] at member
  grind

end Ranges

/-! ### Characters from bytes in range -/

section Encodes

variable {first : UInt8}

theorem exists_char_of_code (code : Nat) (valid : code.isValidChar) :
    ∃ char : Char, char.val.toNat = code :=
  ⟨Char.ofNatAux code valid, rfl⟩

theorem encodes_one (ascii : first.toNat < 0x80) : ∃ char, String.utf8EncodeChar char = [first] := by
  obtain ⟨char, code⟩ := exists_char_of_code first.toNat (by simp only [Nat.isValidChar]; omega)
  refine ⟨char, ?_⟩
  rw [String.utf8EncodeChar, if_pos (by omega), code, UInt8.ofNat_toNat]

theorem encodes_two {second : UInt8} (low : 0xC2 ≤ first.toNat) (high : first.toNat ≤ 0xDF)
    (fits : Fits (continuations first) [second]) :
    ∃ char, String.utf8EncodeChar char = [first, second] := by
  simp only [Fits, continuations_two low high, List.forall₂_cons, within_freeRange] at fits
  obtain ⟨char, code⟩ := exists_char_of_code
    ((first.toNat - 0xC0) * 64 + (second.toNat - 0x80)) (by simp only [Nat.isValidChar]; omega)
  refine ⟨char, ?_⟩
  rw [String.utf8EncodeChar, if_neg (by omega), if_pos (by omega)]
  simp only [code, List.cons.injEq, ← UInt8.toNat_inj, UInt8.toNat_ofNat', and_true]
  omega

theorem encodes_three {second third : UInt8} (low : 0xE0 ≤ first.toNat) (high : first.toNat ≤ 0xEF)
    (fits : Fits (continuations first) [second, third]) :
    ∃ char, String.utf8EncodeChar char = [first, second, third] := by
  simp only [Fits, continuations_three low high, List.forall₂_cons, within_second, within_freeRange,
    UInt8.reduceToNat] at fits
  obtain ⟨char, code⟩ := exists_char_of_code
    ((first.toNat - 0xE0) * 4096 + (second.toNat - 0x80) * 64 + (third.toNat - 0x80))
    (by simp only [Nat.isValidChar]; omega)
  refine ⟨char, ?_⟩
  rw [String.utf8EncodeChar, if_neg (by omega), if_neg (by omega), if_pos (by omega)]
  simp only [code, List.cons.injEq, ← UInt8.toNat_inj, UInt8.toNat_ofNat', and_true]
  omega

theorem encodes_four {second third fourth : UInt8} (low : 0xF0 ≤ first.toNat) (high : first.toNat ≤ 0xF4)
    (fits : Fits (continuations first) [second, third, fourth]) :
    ∃ char, String.utf8EncodeChar char = [first, second, third, fourth] := by
  simp only [Fits, continuations_four low high, List.forall₂_cons, within_second, within_freeRange,
    UInt8.reduceToNat] at fits
  obtain ⟨char, code⟩ := exists_char_of_code
    ((first.toNat - 0xF0) * 262144 + (second.toNat - 0x80) * 4096 + (third.toNat - 0x80) * 64 +
      (fourth.toNat - 0x80)) (by simp only [Nat.isValidChar]; omega)
  refine ⟨char, ?_⟩
  rw [String.utf8EncodeChar, if_neg (by omega), if_neg (by omega), if_neg (by omega)]
  simp only [code, List.cons.injEq, ← UInt8.toNat_inj, UInt8.toNat_ofNat', and_true]
  omega

variable {rest : List UInt8}

theorem encodes_of_fits (leads : continuations first ≠ []) (fits : Fits (continuations first) rest) :
    ∃ char, String.utf8EncodeChar char = first :: rest := by
  have inside : 0xC2 ≤ first.toNat ∧ first.toNat ≤ 0xF4 := by
    by_contra out
    exact leads (continuations_none (by omega))
  have length := fits.length_eq
  rcases Nat.lt_or_ge first.toNat 0xE0 with two | more
  · rw [continuations_two inside.1 (by omega)] at length
    obtain ⟨second, rfl⟩ := List.length_eq_one_iff.mp length.symm
    exact encodes_two inside.1 (by omega) fits
  rcases Nat.lt_or_ge first.toNat 0xF0 with three | four
  · rw [continuations_three more (by omega)] at length
    obtain ⟨second, third, rfl⟩ := List.length_eq_two.mp length.symm
    exact encodes_three more (by omega) fits
  · rw [continuations_four four inside.2] at length
    obtain ⟨second, third, fourth, rfl⟩ := List.length_eq_three.mp length.symm
    exact encodes_four four inside.2 fits

theorem fits_of_encodes {char : Char} (encodes : String.utf8EncodeChar char = first :: rest) :
    first.toNat < 0x80 ∧ rest = [] ∨ continuations first ≠ [] ∧ Fits (continuations first) rest := by
  have valid := char.valid
  simp only [UInt32.isValidChar, Nat.isValidChar] at valid
  rw [String.utf8EncodeChar] at encodes
  split at encodes
  next one =>
    obtain ⟨rfl, rfl⟩ := List.cons.inj encodes
    refine .inl ⟨?_, rfl⟩
    rw [UInt8.toNat_ofNat']
    omega
  split at encodes
  next two =>
    obtain ⟨rfl, rfl⟩ := List.cons.inj encodes
    rw [continuations_two (by rw [UInt8.toNat_ofNat']; omega) (by rw [UInt8.toNat_ofNat']; omega)]
    refine .inr ⟨by simp, ?_⟩
    simp only [Fits, List.forall₂_cons, within_freeRange, UInt8.toNat_ofNat', List.Forall₂.nil, and_true]
    omega
  split at encodes
  next three =>
    obtain ⟨rfl, rfl⟩ := List.cons.inj encodes
    rw [continuations_three (by rw [UInt8.toNat_ofNat']; omega) (by rw [UInt8.toNat_ofNat']; omega)]
    refine .inr ⟨by simp, ?_⟩
    simp only [Fits, List.forall₂_cons, within_second, within_freeRange, UInt8.reduceToNat,
      UInt8.toNat_ofNat', List.Forall₂.nil, and_true]
    omega
  next four =>
    obtain ⟨rfl, rfl⟩ := List.cons.inj encodes
    rw [continuations_four (by rw [UInt8.toNat_ofNat']; omega) (by rw [UInt8.toNat_ofNat']; omega)]
    refine .inr ⟨by simp, ?_⟩
    simp only [Fits, List.forall₂_cons, within_second, within_freeRange, UInt8.reduceToNat,
      UInt8.toNat_ofNat', List.Forall₂.nil, and_true]
    omega

/-- Bytes are those of a character exactly when all that follow the first lie in their ranges. -/
theorem encodes_iff : (∃ char, String.utf8EncodeChar char = first :: rest) ↔
    first.toNat < 0x80 ∧ rest = [] ∨ continuations first ≠ [] ∧ Fits (continuations first) rest := by
  constructor
  · rintro ⟨char, encodes⟩
    exact fits_of_encodes encodes
  · rintro (⟨ascii, rfl⟩ | ⟨leads, fits⟩)
    · exact encodes_one ascii
    · exact encodes_of_fits leads fits

end Encodes

/-! ### What a character begins with -/

def Begins (bytes : List UInt8) : Prop :=
  ∃ char, bytes <+: String.utf8EncodeChar char

theorem Begins.of_prefix {bytes more : List UInt8} (begins : Begins more) (shorter : bytes <+: more) :
    Begins bytes :=
  begins.imp fun _ encodes => shorter.trans encodes

def Opens (ranges : List (UInt8 × UInt8)) (bytes : List UInt8) : Prop :=
  ∃ more, Fits ranges (bytes ++ more)

theorem begins_cons_iff {first : UInt8} {rest : List UInt8} :
    Begins (first :: rest) ↔
      first.toNat < 0x80 ∧ rest = [] ∨ continuations first ≠ [] ∧ Opens (continuations first) rest := by
  constructor
  · rintro ⟨char, more, encodes⟩
    rcases encodes_iff.mp ⟨char, encodes.symm⟩ with ⟨ascii, nothing⟩ | ⟨leads, fits⟩
    · exact .inl ⟨ascii, (List.append_eq_nil_iff.mp nothing).1⟩
    · exact .inr ⟨leads, more, fits⟩
  · rintro (⟨ascii, rfl⟩ | ⟨leads, more, fits⟩)
    · obtain ⟨char, encodes⟩ := encodes_one ascii
      exact ⟨char, encodes ▸ List.prefix_refl _⟩
    · obtain ⟨char, encodes⟩ := encodes_of_fits leads fits
      exact ⟨char, more, encodes.symm⟩

section Broken

variable {range : UInt8 × UInt8} {ranges : List (UInt8 × UInt8)} {byte : UInt8} {bytes : List UInt8}
  {taken length : Nat}

theorem opens_nil (inhabited : ∀ range ∈ ranges, ∃ byte, Within range byte) : Opens ranges [] := by
  induction ranges with
  | nil => exact ⟨[], .nil⟩
  | cons range ranges ih =>
      obtain ⟨byte, within⟩ := inhabited range List.mem_cons_self
      obtain ⟨more, fits⟩ := ih fun range member => inhabited range (List.mem_cons_of_mem _ member)
      exact ⟨byte :: more, .cons within fits⟩

@[simp]
theorem opens_cons : Opens (range :: ranges) (byte :: bytes) ↔ Within range byte ∧ Opens ranges bytes := by
  simp only [Opens, List.cons_append, List.forall₂_cons, exists_and_left]

@[simp]
theorem opens_noRanges_iff : Opens [] bytes ↔ bytes = [] := by
  simp [Opens]

theorem brokenLength_eq_none_iff (inhabited : ∀ range ∈ ranges, ∃ byte, Within range byte) :
    brokenLength taken ranges bytes = none ↔ Opens ranges bytes ∧ ¬ Fits ranges bytes := by
  fun_induction brokenLength taken ranges bytes with
  | case1 taken range ranges => simp [opens_nil inhabited]
  | case2 taken low high ranges byte bytes within ih =>
      have within' : Within (low, high) byte := within
      simp [ih fun range member => inhabited range (List.mem_cons_of_mem _ member), within']
  | case3 taken low high ranges byte bytes outside =>
      have outside' : ¬ Within (low, high) byte := outside
      simp [outside']
  | case4 taken bytes => cases bytes <;> simp

theorem brokenLength_eq_some (inhabited : ∀ range ∈ ranges, ∃ byte, Within range byte)
    (broken : brokenLength taken ranges bytes = some length) :
    ∃ count, length = taken + count ∧ count ≤ bytes.length ∧ Opens ranges (bytes.take count) ∧
      (Fits ranges (bytes.take count) ∨ ¬ Opens ranges (bytes.take (count + 1))) := by
  fun_induction brokenLength taken ranges bytes with
  | case1 taken range ranges => cases broken
  | case2 taken low high ranges byte bytes within ih =>
      obtain ⟨count, rfl, few, opens, stops⟩ :=
        ih (fun range member => inhabited range (List.mem_cons_of_mem _ member)) broken
      have within' : Within (low, high) byte := within
      refine ⟨count + 1, by omega, by simpa using few, ?_, ?_⟩
      · simpa [within'] using opens
      · simpa [within'] using stops
  | case3 taken low high ranges byte bytes outside =>
      have outside' : ¬ Within (low, high) byte := outside
      cases broken
      exact ⟨0, rfl, Nat.zero_le _, opens_nil inhabited, .inr (by simp [outside'])⟩
  | case4 taken bytes =>
      cases broken
      exact ⟨0, rfl, Nat.zero_le _, opens_nil inhabited, .inl .nil⟩

end Broken

/-! ### Bytes that no character starts -/

/-- So many bytes are wrong at the beginning: one that starts no character, or more than one that a
character begins with, where the next one does not go on. -/
structure Breaks (bytes : List UInt8) (length : Nat) : Prop where
  positive : 0 < length
  within : length ≤ bytes.length
  begins : length = 1 ∨ Begins (bytes.take length)
  stops : ¬ Begins (bytes.take (length + 1))

theorem Breaks.not_begins {bytes : List UInt8} {length : Nat} (breaks : Breaks bytes length) :
    ¬ Begins bytes :=
  fun begins => breaks.stops (begins.of_prefix (List.take_prefix _ _))

theorem Breaks.ne_nil {bytes : List UInt8} {length : Nat} (breaks : Breaks bytes length) : bytes ≠ [] :=
  List.ne_nil_of_length_pos (Nat.lt_of_lt_of_le breaks.positive breaks.within)

theorem Breaks.le {bytes : List UInt8} {length other : Nat} (breaks : Breaks bytes length)
    (breaks' : Breaks bytes other) : length ≤ other := by
  by_contra longer
  rcases breaks.begins with rfl | begins
  · have := breaks'.positive
    omega
  · exact breaks'.stops (begins.of_prefix (List.take_prefix_take_left (by omega)))

theorem Breaks.unique {bytes : List UInt8} {length other : Nat} (breaks : Breaks bytes length)
    (breaks' : Breaks bytes other) : length = other :=
  Nat.le_antisymm (breaks.le breaks') (breaks'.le breaks)

def NoCharacter (bytes : List UInt8) : Prop :=
  ∀ char, ¬ String.utf8EncodeChar char <+: bytes

theorem noCharacter_nil : NoCharacter [] := by
  intro char begins
  have none := congrArg List.length (List.prefix_nil.mp begins)
  rw [String.length_utf8EncodeChar, List.length_nil] at none
  have := char.utf8Size_pos
  omega

section WrongLength

variable {first : UInt8} {rest bytes : List UInt8}

theorem NoCharacter.begins_cons_iff (noCharacter : NoCharacter (first :: rest)) (count : Nat) :
    Begins (first :: rest.take count) ↔
      continuations first ≠ [] ∧ Opens (continuations first) (rest.take count) := by
  rw [Text.begins_cons_iff, or_iff_right]
  rintro ⟨ascii, -⟩
  obtain ⟨char, encodes⟩ := encodes_one ascii
  exact noCharacter char ⟨rest, by rw [encodes, List.singleton_append]⟩

theorem NoCharacter.not_fits (noCharacter : NoCharacter (first :: rest)) (leads : continuations first ≠ [])
    (count : Nat) : ¬ Fits (continuations first) (rest.take count) := by
  intro fits
  obtain ⟨char, encodes⟩ := encodes_of_fits leads fits
  exact noCharacter char ⟨rest.drop count, by rw [encodes, List.cons_append, List.take_append_drop]⟩

theorem NoCharacter.breaks (noCharacter : NoCharacter bytes) {length : Nat}
    (wrong : wrongLength bytes = some length) : Breaks bytes length := by
  cases bytes with
  | nil => cases wrong
  | cons first rest =>
      obtain ⟨count, rfl, few, opens, stops⟩ := brokenLength_eq_some (continuations_inhabited first) wrong
      rw [Nat.add_comm]
      have begins := noCharacter.begins_cons_iff
      by_cases leads : continuations first = []
      · rw [leads, opens_noRanges_iff, List.take_eq_nil_iff] at opens
        refine ⟨by omega, by simp; omega, .inl ?_, fun begins' => ?_⟩
        · rcases opens with rfl | rfl
          · rfl
          · simpa using few
        · exact ((begins (count + 1)).mp begins').1 leads
      · have stops := stops.resolve_left (noCharacter.not_fits leads count)
        exact ⟨by omega, by simpa using few, .inr ((begins count).mpr ⟨leads, opens⟩),
          fun begins' => stops ((begins (count + 1)).mp begins').2⟩

theorem NoCharacter.wrongLength_eq_none_iff (noCharacter : NoCharacter bytes) (more : bytes ≠ []) :
    wrongLength bytes = none ↔ Begins bytes := by
  cases bytes with
  | nil => exact absurd rfl more
  | cons first rest =>
      have begins := noCharacter.begins_cons_iff rest.length
      have fits := fun leads => noCharacter.not_fits leads rest.length
      rw [List.take_length] at begins fits
      rw [wrongLength, brokenLength_eq_none_iff (continuations_inhabited first), begins]
      by_cases leads : continuations first = []
      · simp [leads, Fits]
      · simp [leads, fits leads]

theorem NoCharacter.wrongLength_eq_some_iff (noCharacter : NoCharacter bytes) {length : Nat} :
    wrongLength bytes = some length ↔ Breaks bytes length := by
  refine ⟨noCharacter.breaks, fun breaks => ?_⟩
  cases wrong : wrongLength bytes with
  | none => exact absurd ((noCharacter.wrongLength_eq_none_iff breaks.ne_nil).mp wrong) breaks.not_begins
  | some other => rw [(noCharacter.breaks wrong).unique breaks]

end WrongLength

end Redline.Text
