import Mathlib.Data.List.Forall2
import Mathlib.Data.Nat.Digits.Defs
import Redline.Proofs.Json.Strings

/-! Texts against the ways to write them. A character is written as itself, as a letter behind a
backslash or as code units in base sixteen, and every mixture of these is decoded to the text. Half of
a surrogate pair stands for nothing. -/

namespace Redline.Json

def shortEscapes : List (Char × Char) :=
  [('"', '"'), ('\\', '\\'), ('/', '/'), ('b', '\x08'), ('f', '\x0c'), ('n', '\n'), ('r', '\r'),
    ('t', '\t')]

def HexDigit (digit : Char) (value : Nat) : Prop :=
  value < 16 ∧ (digit = value.digitChar ∨ digit = value.digitChar.toUpper)

def HexUnit (digits : List Char) (value : Nat) : Prop :=
  ∃ values, List.Forall₂ HexDigit digits values ∧ values.length = 4 ∧
    Nat.ofDigits 16 values.reverse = value

def LeadingUnit (value : Nat) : Prop :=
  0xD800 ≤ value ∧ value < 0xDC00

def TrailingUnit (value : Nat) : Prop :=
  0xDC00 ≤ value ∧ value < 0xE000

/-- The ways to write a text in a string. -/
inductive Spelled : List Char → List Char → Prop
  | nil : Spelled [] []
  | raw {c : Char} {text written : List Char} :
      ' ' ≤ c → c ≠ '"' → c ≠ '\\' → Spelled text written → Spelled (c :: text) (c :: written)
  | short {letter c : Char} {text written : List Char} :
      (letter, c) ∈ shortEscapes → Spelled text written →
        Spelled (c :: text) ('\\' :: letter :: written)
  | unit {c : Char} {digits text written : List Char} :
      HexUnit digits c.toNat → Spelled text written →
        Spelled (c :: text) ('\\' :: 'u' :: (digits ++ written))
  | pair {c : Char} {leading trailing text written : List Char} {high low : Nat} :
      HexUnit leading high → HexUnit trailing low → LeadingUnit high → TrailingUnit low →
      c.toNat = 0x10000 + (high - 0xD800) * 0x400 + (low - 0xDC00) → Spelled text written →
        Spelled (c :: text) ('\\' :: 'u' :: (leading ++ '\\' :: 'u' :: (trailing ++ written)))

def quoted (written : List Char) : List Char :=
  '"' :: (written ++ ['"'])

namespace Mark

def UnitOf (kind : Nat → Prop) : Mark → Prop
  | unit digits _ _ => ∃ value, HexUnit digits value ∧ kind value
  | _ => False

def Leading : Mark → Prop :=
  UnitOf LeadingUnit

def Trailing : Mark → Prop :=
  UnitOf TrailingUnit

end Mark

inductive Literal.Unpaired : Literal → Prop
  | leading {before after : Literal} {mark : Mark} : mark.Leading →
      (∀ next ∈ after.head?, ¬ next.Trailing) → Unpaired (before ++ mark :: after)
  | trailing {before after : Literal} {mark : Mark} : mark.Trailing →
      (∀ previous ∈ before.getLast?, ¬ previous.Leading) → Unpaired (before ++ mark :: after)

theorem hexValue?_digitChar : ∀ value < 16,
    hexValue? value.digitChar = some value ∧ hexValue? value.digitChar.toUpper = some value := by
  decide

theorem hexDigit_ofNat : ∀ code < 128, ∀ value ∈ hexValue? (Char.ofNat code),
    value < 16 ∧ (Char.ofNat code = value.digitChar ∨ Char.ofNat code = value.digitChar.toUpper) := by
  decide

theorem hexValue?_eq_some_iff {digit : Char} {value : Nat} :
    hexValue? digit = some value ↔ HexDigit digit value := by
  constructor
  · intro isValue
    have single := utf8Size_of_hexValue (c := digit) (by simp [isValue])
    rw [Char.utf8Size_eq_one_iff, UInt32.le_iff_toNat_le] at single
    have small : digit.toNat < 128 := Nat.lt_succ_of_le single
    have digits := hexDigit_ofNat digit.toNat small value
    rw [Char.ofNat_toNat] at digits
    exact digits isValue
  · rintro ⟨small, rfl | rfl⟩
    · exact (hexValue?_digitChar value small).1
    · exact (hexValue?_digitChar value small).2

theorem unitValue_eq_ofDigits (digits : List Char) :
    unitValue digits = Nat.ofDigits 16 (digits.map fun digit => (hexValue? digit).getD 0).reverse := by
  rw [unitValue, Nat.ofDigits_eq_foldr, List.foldr_reverse, List.foldl_map]
  simp [Nat.mul_comm, Nat.add_comm]

theorem hexUnit_iff {digits : List Char} {value : Nat} : HexUnit digits value ↔
    digits.length = 4 ∧ (∀ digit ∈ digits, (hexValue? digit).isSome) ∧ unitValue digits = value := by
  rw [unitValue_eq_ofDigits]
  constructor
  · rintro ⟨values, each, four, same⟩
    have isMap : digits.map (fun digit => (hexValue? digit).getD 0) = values := by
      rw [← List.forall₂_eq_eq_eq, List.forall₂_map_left_iff]
      refine each.imp fun digit value isDigit => ?_
      rw [hexValue?_eq_some_iff.mpr isDigit, Option.getD_some]
    refine ⟨each.length_eq.trans four, ?_, by rw [isMap, same]⟩
    clear four same isMap
    induction each with
    | nil => exact List.forall_mem_nil _
    | cons isDigit _ ih =>
        exact List.forall_mem_cons.mpr ⟨by rw [hexValue?_eq_some_iff.mpr isDigit, Option.isSome_some], ih⟩
  · rintro ⟨four, hex, same⟩
    refine ⟨_, ?_, by rw [List.length_map, four], same⟩
    rw [List.forall₂_map_right_iff, List.forall₂_same]
    intro digit member
    rw [← hexValue?_eq_some_iff]
    obtain ⟨value, isValue⟩ := Option.isSome_iff_exists.mp (hex digit member)
    simp [isValue]

theorem escaped?_of_mem : ∀ pair ∈ shortEscapes, escaped? pair.1 = some pair.2 := by
  decide

theorem escaped?_of_notMem {letter : Char} (unknown : letter ∉ shortEscapes.map Prod.fst) :
    escaped? letter = none := by
  fun_cases escaped? letter with
  | case9 => rfl
  | _ => simp [shortEscapes] at unknown

theorem isLeading_iff {value : Nat} : isLeading value = true ↔ LeadingUnit value := by
  simp only [isLeading, LeadingUnit, Bool.and_eq_true, decide_eq_true_eq]
  omega

theorem isTrailing_iff {value : Nat} : isTrailing value = true ↔ TrailingUnit value := by
  simp only [isTrailing, TrailingUnit, Bool.and_eq_true, decide_eq_true_eq]
  omega

theorem LeadingUnit.not_trailing {value : Nat} (leads : LeadingUnit value) : ¬ TrailingUnit value :=
  fun trails => absurd leads.2 (Nat.not_lt.mpr trails.1)

theorem not_surrogate (c : Char) : ¬ LeadingUnit c.toNat ∧ ¬ TrailingUnit c.toNat := by
  have valid := c.valid
  simp only [UInt32.isValidChar, Nat.isValidChar, Char.toNat_val] at valid
  constructor
  · rintro ⟨lower, upper⟩
    omega
  · rintro ⟨lower, upper⟩
    omega

theorem Spelled.exists_literal {text written : List Char} (spelled : Spelled text written) :
    ∃ literal : Literal, literal.chars = written ∧ literal.decode = some text := by
  induction spelled with
  | nil => exact ⟨[], rfl, rfl⟩
  | @raw c _ _ printable quote escape _ ih =>
      obtain ⟨literal, rfl, decoded⟩ := ih
      refine ⟨.plain c ⟨printable, quote, escape⟩ :: literal, by simp [Mark.chars], ?_⟩
      rw [Literal.decode, Literal.decodeFrom, ← Literal.decode, decoded, Option.map_some]
  | @short letter c _ _ known _ ih =>
      obtain ⟨literal, rfl, decoded⟩ := ih
      have escaped : escaped? letter = some c := escaped?_of_mem _ known
      refine ⟨.short letter (by rw [escaped, Option.isSome_some]) :: literal, by simp [Mark.chars], ?_⟩
      rw [Literal.decode, Literal.decodeFrom, ← Literal.decode, decoded, Option.map_some]
      simp [escaped]
  | @unit c digits _ _ isUnit _ ih =>
      obtain ⟨literal, rfl, decoded⟩ := ih
      obtain ⟨four, hex, value⟩ := hexUnit_iff.mp isUnit
      obtain ⟨notLeading, notTrailing⟩ := not_surrogate c
      refine ⟨.unit digits four hex :: literal, by simp [Mark.chars], ?_⟩
      rw [← isLeading_iff] at notLeading
      rw [← isTrailing_iff] at notTrailing
      rw [Literal.decode, Literal.decodeFrom, value, if_neg notTrailing, if_neg notLeading,
        ← Literal.decode, decoded, Option.map_some, Char.ofNat_toNat]
  | @pair c leading trailing _ _ high low isHigh isLow leads trails whole _ ih =>
      obtain ⟨literal, rfl, decoded⟩ := ih
      obtain ⟨four, hex, value⟩ := hexUnit_iff.mp isHigh
      obtain ⟨four', hex', value'⟩ := hexUnit_iff.mp isLow
      have notTrailing : ¬ isTrailing high = true := by
        rw [isTrailing_iff]
        exact leads.not_trailing
      refine ⟨.unit leading four hex :: .unit trailing four' hex' :: literal, by simp [Mark.chars], ?_⟩
      rw [← isLeading_iff] at leads
      rw [← isTrailing_iff] at trails
      rw [Literal.decode, Literal.decodeFrom, value, if_neg notTrailing, if_pos leads, Literal.decodeFrom,
        value', if_pos trails, ← Literal.decode, decoded, Option.map_some, pairedChar]
      have same : (high - 0xD800) * 0x400 + (low - 0xDC00) + 0x10000 = c.toNat := by omega
      rw [same, Char.ofNat_toNat]

theorem Mark.unitOf_unit_iff {kind : Nat → Prop} {digits : List Char} {four : digits.length = 4}
    {hex : ∀ c ∈ digits, (hexValue? c).isSome} :
    (Mark.unit digits four hex).UnitOf kind ↔ kind (unitValue digits) := by
  constructor
  · rintro ⟨value, isUnit, isKind⟩
    rwa [(hexUnit_iff.mp isUnit).2.2]
  · intro isKind
    exact ⟨_, hexUnit_iff.mpr ⟨four, hex, rfl⟩, isKind⟩

namespace Literal

/-- Where a literal is decoded over a mark, the mark ends a pair if one is open, and opens one if one is
open behind it. -/
theorem decodeFrom_cons (pending : Option Nat) (mark : Mark) (marks : Literal) :
    decodeFrom pending (mark :: marks) = none ∨ ∃ (next : Option Nat) (add : List Char → List Char),
      (mark.Trailing ↔ pending.isSome) ∧ (mark.Leading ↔ next.isSome) ∧
        decodeFrom pending (mark :: marks) = (decodeFrom next marks).map add := by
  cases mark with
  | plain c raw =>
      cases pending with
      | some _ => exact .inl rfl
      | none =>
          exact .inr ⟨none, (c :: ·), by simp [Mark.Trailing, Mark.UnitOf],
            by simp [Mark.Leading, Mark.UnitOf], rfl⟩
  | short letter known =>
      cases pending with
      | some _ => exact .inl rfl
      | none =>
          exact .inr ⟨none, _, by simp [Mark.Trailing, Mark.UnitOf],
            by simp [Mark.Leading, Mark.UnitOf], rfl⟩
  | unit digits four hex =>
      rw [Mark.Leading, Mark.Trailing, Mark.unitOf_unit_iff, Mark.unitOf_unit_iff, ← isLeading_iff,
        ← isTrailing_iff]
      by_cases trails : isTrailing (unitValue digits) = true
      · have notLeading : ¬ isLeading (unitValue digits) = true := by
          rw [isLeading_iff]
          exact fun leads => leads.not_trailing (isTrailing_iff.mp trails)
        cases pending with
        | none => exact .inl (by rw [decodeFrom, if_pos trails])
        | some leading =>
            refine .inr ⟨none, (pairedChar leading (unitValue digits) :: ·), by simp [trails],
              by simp [notLeading], ?_⟩
            rw [decodeFrom, if_pos trails]
      · cases pending with
        | some leading => exact .inl (by rw [decodeFrom, if_neg trails])
        | none =>
            rw [decodeFrom, if_neg trails]
            by_cases leads : isLeading (unitValue digits) = true
            · refine .inr ⟨some (unitValue digits), id, by simp [trails], by simp [leads], ?_⟩
              rw [if_pos leads, Option.map_id_apply]
            · refine .inr ⟨none, (Char.ofNat (unitValue digits) :: ·), by simp [trails],
                by simp [leads], ?_⟩
              rw [if_neg leads]

theorem decodeFrom_leading {before after : Literal} {mark : Mark} (leads : mark.Leading)
    (alone : ∀ next ∈ after.head?, ¬ next.Trailing) (pending : Option Nat) :
    decodeFrom pending (before ++ mark :: after) = none := by
  -- The marks in front may leave a pair open or not, so the induction is over both.
  induction before generalizing pending with
  | nil =>
      rw [List.nil_append]
      rcases decodeFrom_cons pending mark after with nothing | ⟨next, add, _, opened, same⟩
      · exact nothing
      · obtain ⟨leading, rfl⟩ := Option.isSome_iff_exists.mp (opened.mp leads)
        rw [same]
        cases after with
        | nil => rfl
        | cons follower after =>
            rcases decodeFrom_cons (some leading) follower after with nothing | ⟨_, _, ended, _⟩
            · rw [nothing, Option.map_none]
            · exact absurd (ended.mpr rfl) (alone follower rfl)
  | cons first before ih =>
      rw [List.cons_append]
      rcases decodeFrom_cons pending first (before ++ mark :: after) with nothing | ⟨next, add, _, _, same⟩
      · exact nothing
      · rw [same, ih, Option.map_none]

theorem decodeFrom_trailing {before after : Literal} {mark : Mark} (trails : mark.Trailing)
    (alone : ∀ previous ∈ before.getLast?, ¬ previous.Leading) {pending : Option Nat}
    (first : before = [] → pending = none) :
    decodeFrom pending (before ++ mark :: after) = none := by
  -- Only the mark right in front can have opened a pair; with none in front there is no open pair.
  induction before generalizing pending with
  | nil =>
      rw [List.nil_append]
      rcases decodeFrom_cons pending mark after with nothing | ⟨next, add, ended, _⟩
      · exact nothing
      · have opened := ended.mp trails
        rw [first rfl] at opened
        cases opened
  | cons leader before ih =>
      rw [List.cons_append]
      rcases decodeFrom_cons pending leader (before ++ mark :: after) with
        nothing | ⟨next, add, _, opened, same⟩
      · exact nothing
      · rw [same, ih, Option.map_none]
        · intro previous isLast
          cases before with
          | nil => cases isLast
          | cons second before => exact alone previous (by rwa [List.getLast?_cons_cons])
        · rintro rfl
          have notLeading := alone leader rfl
          rw [opened] at notLeading
          simpa using notLeading

theorem decode_unpaired {literal : Literal} (unpaired : literal.Unpaired) : literal.decode = none := by
  cases unpaired with
  | leading leads alone => exact decodeFrom_leading leads alone none
  | trailing trails alone => exact decodeFrom_trailing trails alone fun _ => rfl

end Literal

end Redline.Json
