import Redline.Proofs.Json.Places
import Redline.Proofs.Json.Spelled

/-! Where the strings of a text begin and end. A machine reads a text character by character and keeps
no more than its place in a string. It is between strings after every token of a tree, and it does not
get past what is no character of a string. -/

namespace Redline.Json

inductive Quoting where
  | outside
  | inside
  | escape
  | digits (left : Nat)

namespace Quoting

def next : Quoting → Char → Option Quoting
  | outside, c => some (if c = '"' then inside else outside)
  | inside, c =>
    if c = '"' then some outside
    else if c = '\\' then some escape
    else if c < ' ' then none
    else some inside
  | escape, c =>
    if c = 'u' then some (digits 4) else if (escaped? c).isSome then some inside else none
  | digits left, c =>
    if (hexValue? c).isSome then some (if left ≤ 1 then inside else digits (left - 1)) else none

def run (state : Quoting) (text : List Char) : Option Quoting :=
  text.foldlM next state

theorem run_append (state : Quoting) (front back : List Char) :
    run state (front ++ back) = (run state front).bind fun state => run state back :=
  List.foldlM_append

theorem run_cons (state : Quoting) (c : Char) (text : List Char) :
    run state (c :: text) = (next state c).bind fun state => run state text :=
  List.foldlM_cons

theorem run_unquoted {text : List Char} (unquoted : '"' ∉ text) : run outside text = some outside := by
  induction text with
  | nil => rfl
  | cons c text ih =>
      rw [List.mem_cons, not_or] at unquoted
      rw [run_cons, next, if_neg (Ne.symm unquoted.1), Option.bind_some, ih unquoted.2]

theorem run_digits {text : List Char} (hex : ∀ c ∈ text, (hexValue? c).isSome) (due : text ≠ []) :
    run (digits text.length) text = some inside := by
  induction text with
  | nil => exact absurd rfl due
  | cons c text ih =>
      rw [List.forall_mem_cons] at hex
      rw [run_cons, next, if_pos hex.1, Option.bind_some]
      cases text with
      | nil => rfl
      | cons c' text => simpa using ih hex.2 (by simp)

theorem run_mark (mark : Mark) : run inside mark.chars = some inside := by
  cases mark with
  | plain c raw =>
      have printable : ¬ c < ' ' := Char.not_lt.mpr raw.1
      simp [Mark.chars, next, raw.2.1, raw.2.2, printable, run]
  | short letter known =>
      have notUnit : letter ≠ 'u' := by
        rintro rfl
        cases known
      simp [Mark.chars, next, notUnit, known, run]
  | unit digits four hex =>
      have passed := run_digits hex (by rintro rfl; cases four)
      rw [four] at passed
      simp [Mark.chars, run_cons, next, passed]

theorem run_literal (literal : Literal) : run inside literal.chars = some inside := by
  induction literal with
  | nil => rfl
  | cons mark literal ih => rw [Literal.chars_cons, run_append, run_mark, Option.bind_some, ih]

theorem unquoted_digits (digits : Digits) : '"' ∉ digits.chars :=
  fun quote => absurd (digits.digits _ quote) (by decide)

theorem unquoted_exponent (exponent : Exponent) : '"' ∉ exponent.chars := by
  have letter : '"' ≠ exponent.letter := by
    intro same
    have isLetter := exponent.isLetter
    rw [← same] at isLetter
    cases isLetter
  rcases exponent.isSign with sign | sign | sign <;>
    simp [Exponent.chars, sign, letter, unquoted_digits]

theorem unquoted_numeral (numeral : Numeral) : '"' ∉ numeral.token := by
  have tail : '"' ∉ numeral.tail := by
    rw [Numeral.tail]
    cases numeral.fraction <;> cases numeral.exponent <;> simp [unquoted_digits, unquoted_exponent]
  rw [Numeral.token, Numeral.unsigned]
  split <;> simp [unquoted_digits, tail]

theorem eachToken_run : EachToken fun token => run outside token = some outside where
  fixed := by
    intro token isFixed
    refine run_unquoted ?_
    revert token
    decide
  number := by
    intro numeral
    exact run_unquoted (unquoted_numeral numeral)
  string := by
    intro literal
    rw [Literal.token, run_cons, next, if_pos rfl, Option.bind_some, run_append, run_literal]
    rfl

theorem run_blank {gap : List Char} (blank : ∀ c ∈ gap, isSpace c = true) : run outside gap = some outside :=
  run_unquoted fun quote => absurd (blank _ quote) (by decide)

theorem run_spaced {text rest : List Char} {tokens : List Token} (spaced : Spaced text tokens rest)
    (kept : ∀ token ∈ tokens, run outside token = some outside)
    (ended : ∀ c ∈ rest, isSpace c = true) : run outside text = some outside := by
  induction spaced with
  | done rest => exact run_blank ended
  | token blank _ _ ih =>
      rw [List.forall_mem_cons] at kept
      rw [run_append, run_blank blank, Option.bind_some, run_append, kept.1, Option.bind_some,
        ih kept.2 ended]

theorem run_of_spells {text : List Char} {tree : Tree} (spells : Spells text tree) :
    run outside text = some outside := by
  obtain ⟨rest, spaced, blank⟩ := spells
  exact run_spaced spaced (tree.forall_tokens eachToken_run) blank

theorem run_front {front gap : List Char} {context : Context} (spaced : Spaced front context.front gap)
    (blank : ∀ c ∈ gap, isSpace c = true) : run outside front = some outside := by
  have kept := (context.fill .null).forall_tokens eachToken_run
  rw [context.tokens_fill, List.forall_mem_append] at kept
  exact run_spaced spaced kept.1 blank

theorem digits_of_run {text : List Char} {left : Nat} (due : 0 < left)
    (passed : run (digits left) text = some outside) :
    ∃ units rest, text = units ++ rest ∧ units.length = left ∧ ∀ c ∈ units, (hexValue? c).isSome := by
  induction text generalizing left with
  | nil => cases passed
  | cons c text ih =>
      rw [run_cons, next] at passed
      split at passed
      next hex =>
        rw [Option.bind_some] at passed
        split at passed
        next last =>
          refine ⟨[c], text, rfl, ?_, List.forall_mem_singleton.mpr hex⟩
          rw [List.length_singleton]
          omega
        next more =>
          obtain ⟨units, rest, rfl, length, each⟩ := ih (by omega) passed
          refine ⟨c :: units, rest, rfl, ?_, List.forall_mem_cons.mpr ⟨hex, each⟩⟩
          rw [List.length_cons]
          omega
      next => cases passed

end Quoting

/-- What cannot come next in a string. -/
inductive Misspelled : List Char → Prop
  | control {c : Char} {text : List Char} : c < ' ' → Misspelled (c :: text)
  | letter {letter : Char} {text : List Char} :
      letter ≠ 'u' → letter ∉ shortEscapes.map Prod.fst → Misspelled ('\\' :: letter :: text)
  | unit {text : List Char} :
      (∀ digits value rest, text = digits ++ rest → ¬ HexUnit digits value) →
        Misspelled ('\\' :: 'u' :: text)

theorem Misspelled.run_ne {text : List Char} (misspelled : Misspelled text) :
    Quoting.run .inside text ≠ some .outside := by
  intro passed
  cases misspelled with
  | @control c text control =>
      have quote : c ≠ '"' := by
        rintro rfl
        exact absurd control (by decide)
      have escape : c ≠ '\\' := by
        rintro rfl
        exact absurd control (by decide)
      simp [Quoting.run_cons, Quoting.next, quote, escape, control] at passed
  | letter notUnit unknown =>
      simp [Quoting.run_cons, Quoting.next, notUnit, escaped?_of_notMem unknown] at passed
  | @unit text noUnit =>
      have due : Quoting.run (.digits 4) text = some .outside := by
        simpa [Quoting.run_cons, Quoting.next] using passed
      obtain ⟨digits, rest, whole, four, hex⟩ := Quoting.digits_of_run (by decide) due
      exact noUnit digits _ rest whole (hexUnit_iff.mpr ⟨four, hex, rfl⟩)

end Redline.Json
