import Mathlib.Data.Nat.Digits.Lemmas
import Redline.Proofs.Json.Typed

/-! Whole numbers against their digits. Within 64 bits a numeral without fraction and exponent has the
value of its digits. Every other numeral is a double, or nothing, and no integer. -/

namespace Redline.Json

def decimal (digits : List Char) : Nat :=
  Nat.ofDigits 10 (digits.reverse.map fun digit => digit.toNat - '0'.toNat)

@[simp] theorem decimal_nil : decimal [] = 0 :=
  rfl

theorem decimal_cons (digit : Char) (digits : List Char) :
    decimal (digit :: digits) = (digit.toNat - '0'.toNat) * 10 ^ digits.length + decimal digits := by
  simp [decimal, Nat.ofDigits_append, Nat.add_comm, Nat.mul_comm]

def withSign (negative : Bool) (value : Nat) : Int :=
  if negative then -value else value

namespace Numeral

def IsWhole (numeral : Numeral) : Prop :=
  numeral.fraction = none ∧ numeral.exponent = none

def signed (numeral : Numeral) : Int :=
  withSign numeral.negative (decimal numeral.whole.chars)

end Numeral

theorem carry_digit (value : Nat) (digit : Char) (digits : List Char) :
    (value * 10 + (digit.toNat - '0'.toNat)) * 10 ^ digits.length + decimal digits =
      value * 10 ^ (digit :: digits).length + decimal (digit :: digits) := by
  rw [decimal_cons, List.length_cons, Nat.pow_succ]
  ring

theorem gather_fits (value : Nat) (digits : List Char)
    (fits : value * 10 ^ digits.length + decimal digits < 2 ^ 64) :
    gather value digits = (value * 10 ^ digits.length + decimal digits, 0) := by
  induction digits generalizing value with
  | nil => simp [gather]
  | cons digit digits ih =>
      rw [← carry_digit] at fits ⊢
      have positive := Nat.one_le_pow digits.length 10 (by decide)
      have few : value * 10 + (digit.toNat - '0'.toNat) < 2 ^ 64 := by nlinarith
      rw [gather]
      simp only [Nat.pow_eq, few, ↓reduceIte]
      exact ih _ fits

theorem gather_left (value : Nat) (digits : List Char) (few : value < 2 ^ 64)
    (great : 2 ^ 64 ≤ value * 10 ^ digits.length + decimal digits) :
    0 < (gather value digits).2 := by
  induction digits generalizing value with
  | nil => simp at great; omega
  | cons digit digits ih =>
      rw [gather]
      split
      next fits => exact ih _ fits (by rwa [carry_digit])
      next => exact Nat.succ_pos _

theorem Tree.integer?_within {range : IntegerRange} {tree : Tree} {value : Int}
    (means : tree.integer? range = some value) : range.least ≤ value ∧ value < range.beyond := by
  cases tree with
  | number numeral =>
      obtain ⟨number, _, within⟩ := Option.bind_eq_some_iff.mp means
      cases number with
      | float _ => cases within
      | integer _ =>
          simp only [Number.within?, Option.ite_none_right_eq_some, Option.some.injEq] at within
          exact within.2 ▸ within.1
  | _ => cases means

section Doubles

variable {range : IntegerRange}

theorem scaled?_within (negative : Bool) (digits : Nat) (power : Int) :
    (scaled? negative digits power).bind (Number.within? range) = none := by
  rw [scaled?]
  cases scale? (UInt64.ofNat digits).toFloat power <;> rfl

theorem Exponent.scaled?_within (exponent : Exponent) (negative : Bool) (digits : Nat) (power : Int) :
    (exponent.scaled? negative digits power).bind (Number.within? range) = none := by
  fun_cases Exponent.scaled? exponent negative digits power with
  | case1 value => exact Json.scaled?_within _ _ _
  | case2 => rfl
  | case3 => rfl

theorem Numeral.value?_not_whole {numeral : Numeral} (notWhole : ¬ numeral.IsWhole) :
    numeral.value?.bind (Number.within? range) = none := by
  rw [value?]
  generalize gather 0 numeral.whole.chars = gathered
  obtain ⟨digits, left⟩ := gathered
  dsimp only
  fun_cases Numeral.tailValue? numeral digits left with
  | case1 exponent fraction => exact absurd ⟨fraction, exponent⟩ notWhole
  | case2 exponent fraction => exact absurd ⟨fraction, exponent⟩ notWhole
  | case3 => exact Exponent.scaled?_within _ _ _ _
  | case4 => exact Json.scaled?_within _ _ _
  | case5 => exact Exponent.scaled?_within _ _ _ _

end Doubles

namespace Numeral

variable {numeral : Numeral}

theorem eq_zero_of_decimal {c : Char} {more : List Char} (digit : isDigit c = true)
    (zero : decimal (c :: more) = 0) : c = '0' := by
  have positive := Nat.one_le_pow more.length 10 (by decide)
  have small : c.toNat - '0'.toNat = 0 := by
    rw [decimal_cons] at zero
    nlinarith
  simp only [isDigit, Bool.and_eq_true, decide_eq_true_eq] at digit
  have least : '0'.toNat ≤ c.toNat := digit.1
  exact Char.toNat_inj.mp (by omega)

theorem token_eq_minusZero_iff (whole : numeral.IsWhole) :
    numeral.token = "-0".toList ↔ numeral.negative = true ∧ decimal numeral.whole.chars = 0 := by
  have unsigned : numeral.unsigned = numeral.whole.chars := by
    simp [Numeral.unsigned, tail, whole.1, whole.2]
  obtain ⟨c, more, chars, digit⟩ := numeral.whole.exists_cons
  have plainZero := numeral.plainZero
  rw [token, unsigned]
  rw [chars] at plainZero ⊢
  constructor
  · intro isToken
    split at isToken
    next negative =>
      obtain ⟨rfl, rfl⟩ : c = '0' ∧ more = [] := by simpa using isToken
      exact ⟨negative, rfl⟩
    next =>
      obtain ⟨rfl, _⟩ : c = '-' ∧ more = ['0'] := by simpa using isToken
      exact absurd digit (by decide)
  · rintro ⟨negative, zero⟩
    obtain rfl := eq_zero_of_decimal digit zero
    rw [if_pos negative, plainZero rfl]
    rfl

end Numeral

section Range

variable {range : IntegerRange} (least : -2 ^ 63 ≤ range.least) (beyond : range.beyond ≤ 2 ^ 64)

include least

/-- Of the whole numbers, a zero with a sign and what is too low for 64 bits are doubles. The range has
neither. -/
theorem wholeNumber_within (negative : Bool) (value : Nat) :
    (wholeNumber negative value).within? range =
      if ¬ (negative = true ∧ value = 0) ∧ range.least ≤ withSign negative value ∧
        withSign negative value < range.beyond then some (withSign negative value) else none := by
  rw [wholeNumber, withSign]
  cases negative with
  | false => simp [Number.within?]
  | true =>
      by_cases exact : 0 < value ∧ value ≤ Nat.pow 2 63
      · have some : value ≠ 0 := exact.1.ne'
        simp only [Bool.not_true, Bool.false_eq_true, ↓reduceIte, exact, and_self, Number.within?,
          some, and_false, not_false_eq_true, true_and]
      · have outside : ¬ (value ≠ 0 ∧ range.least ≤ -(value : Int)) := by
          rintro ⟨notZero, low⟩
          exact exact ⟨Nat.pos_of_ne_zero notZero, by norm_num; omega⟩
        simp only [Bool.not_true, Bool.false_eq_true, ↓reduceIte, exact, Number.within?, true_and,
          ← and_assoc, outside, false_and]

include beyond

theorem Numeral.value?_whole {numeral : Numeral} (whole : numeral.IsWhole) :
    numeral.value?.bind (Number.within? range) =
      if numeral.token ≠ "-0".toList ∧ range.least ≤ numeral.signed ∧ numeral.signed < range.beyond
      then some numeral.signed else none := by
  simp only [ne_eq, token_eq_minusZero_iff whole, signed]
  rw [← wholeNumber_within least, value?]
  by_cases fits : decimal numeral.whole.chars < 2 ^ 64
  · have gathered := gather_fits 0 numeral.whole.chars (by simpa using fits)
    simp [gathered, tailValue?, whole.1, whole.2]
  · have more := gather_left 0 numeral.whole.chars (by decide) (by simpa using fits)
    generalize gather 0 numeral.whole.chars = gathered at more
    obtain ⟨digits, left⟩ := gathered
    have doubled : numeral.tailValue? digits left = scaled? numeral.negative digits left := by
      simp [tailValue?, whole.1, whole.2, Nat.pos_iff_ne_zero.mp more]
    have outside : ¬ (range.least ≤ withSign numeral.negative (decimal numeral.whole.chars) ∧
        withSign numeral.negative (decimal numeral.whole.chars) < range.beyond) := by
      rw [withSign]
      split <;> omega
    dsimp only
    rw [doubled, scaled?_within, wholeNumber_within least, if_neg fun within => outside within.2]

theorem Tree.integer?_number {numeral : Numeral} {value : Int} :
    (Tree.number numeral).integer? range = some value ↔
      (numeral.IsWhole ∧ numeral.token ≠ "-0".toList ∧
        range.least ≤ numeral.signed ∧ numeral.signed < range.beyond) ∧ numeral.signed = value := by
  rw [integer?]
  by_cases whole : numeral.IsWhole
  · rw [numeral.value?_whole least beyond whole]
    simp only [whole, true_and, Option.ite_none_right_eq_some, Option.some.injEq]
  · simp [numeral.value?_not_whole whole, whole]

end Range

end Redline.Json
