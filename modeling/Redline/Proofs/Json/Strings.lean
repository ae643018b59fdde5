import Mathlib.Data.String.Basic
import Redline.Proofs.Json.Outcome
import Redline.Proofs.Json.Syntax

/-! Strings against their spelling. What is between the quotes is a literal, and reading it gives
the characters that the literal stands for; passing over it asks for no more than its form. -/

namespace Redline.Json

def unitValue (digits : List Char) : Nat :=
  digits.foldl (fun value digit => value * 16 + (hexValue? digit).getD 0) 0

/-- The characters of a literal behind a leading surrogate, if one waits for its partner. Code units
make characters by themselves or as surrogate pairs. -/
def Literal.decodeFrom : Option Nat → Literal → Option (List Char)
  | none, [] => some []
  | none, .plain c _ :: marks => (decodeFrom none marks).map (c :: ·)
  | none, .short letter known :: marks => (decodeFrom none marks).map ((escaped? letter).get known :: ·)
  | none, .unit digits _ _ :: marks =>
    if isTrailing (unitValue digits) then none
    else if isLeading (unitValue digits) then decodeFrom (some (unitValue digits)) marks
    else (decodeFrom none marks).map (Char.ofNat (unitValue digits) :: ·)
  | some leading, .unit digits _ _ :: marks =>
    if isTrailing (unitValue digits) then
      (decodeFrom none marks).map (pairedChar leading (unitValue digits) :: ·)
    else none
  | some _, _ => none

def Literal.decode (literal : Literal) : Option (List Char) :=
  literal.decodeFrom none

theorem length_le_byteLength (text : List Char) : text.length ≤ byteLength text := by
  rw [byteLength, String.utf8ByteSize_ofList]
  induction text with
  | nil => simp
  | cons c rest ih =>
      have := c.utf8Size_pos
      simp only [List.length_cons, String.utf8Len_cons]
      omega

theorem utf8Size_of_hexValue {c : Char} (hex : (hexValue? c).isSome) : c.utf8Size = 1 := by
  rw [Char.utf8Size_eq_one_iff, UInt32.le_iff_toNat_le]
  change c.toNat ≤ 127
  simp only [hexValue?, Char.le_def, UInt32.le_iff_toNat_le, Char.toNat_val] at hex
  split at hex
  next decimal => exact Nat.le_trans decimal.2 (by decide)
  next =>
    split at hex
    next lower => exact Nat.le_trans lower.2 (by decide)
    next =>
      split at hex
      next upper => exact Nat.le_trans upper.2 (by decide)
      next => simp at hex

theorem checkHex_append {digits : List Char} (four : digits.length = 4)
    (hex : ∀ c ∈ digits, (hexValue? c).isSome) (rest : List Char) :
    checkHex (digits ++ rest) = .ok () := by
  have bytes := length_le_byteLength digits
  have taken : (digits ++ rest).take 4 = digits := by rw [← four, List.take_left]
  rw [checkHex, taken, if_neg (by omega), if_pos (by simpa using hex)]

theorem byteLength_of_hexValue {text : List Char} (hex : ∀ c ∈ text, (hexValue? c).isSome) :
    byteLength text = text.length := by
  rw [byteLength, String.utf8ByteSize_ofList]
  induction text with
  | nil => rfl
  | cons c rest ih =>
      rw [String.utf8Len_cons, ih fun later member => hex later (by simp [member]),
        utf8Size_of_hexValue (hex c (by simp)), List.length_cons]

theorem digits_of_checkHex {text : List Char} (checked : checkHex text = .ok ()) :
    ∃ digits rest, text = digits ++ rest ∧ digits.length = 4 ∧ ∀ c ∈ digits, (hexValue? c).isSome := by
  rw [checkHex] at checked
  split at checked
  next => simp at checked
  next enough =>
    split at checked
    next hex =>
      rw [List.all_eq_true] at hex
      refine ⟨text.take 4, text.drop 4, (List.take_append_drop 4 text).symm, ?_, hex⟩
      rw [byteLength_of_hexValue hex] at enough
      have := List.length_take_le 4 text
      omega
    next => simp at checked

theorem readStringFrom_digits {digits : List Char} (four : digits.length = 4) (leading : Option Nat)
    (read rest : List Char) :
    readStringFrom (.digits 4 0 leading) read (digits ++ rest) =
      afterUnit (unitValue digits) leading rest >>= fun progress =>
        readStringFrom progress.1 (progress.2.toList ++ read) rest := by
  match digits, four with
  | [first, second, third, fourth], _ =>
      simp [readStringFrom, advance, unitValue]

def resume : Option Nat → Pending
  | none => .nothing
  | some leading => .backslash leading

theorem readStringFrom_plain {c : Char} (raw : ' ' ≤ c ∧ c ≠ '"' ∧ c ≠ '\\') (read rest : List Char) :
    readStringFrom .nothing read (c :: rest) = readStringFrom .nothing (c :: read) rest := by
  have notControl : ¬ c < ' ' := Char.not_lt.mpr raw.1
  rw [readStringFrom]
  · simp [advance, raw.2.2, notControl]
  · exact fun _ quote => raw.2.1 quote

theorem readStringFrom_short {letter c : Char} (known : escaped? letter = some c)
    (read rest : List Char) :
    readStringFrom .nothing read ('\\' :: letter :: rest) = readStringFrom .nothing (c :: read) rest := by
  have notUnit : letter ≠ 'u' := by
    rintro rfl
    cases known
  simp [readStringFrom, advance, notUnit, known]

theorem readStringFrom_unit {digits : List Char} (four : digits.length = 4)
    (hex : ∀ c ∈ digits, (hexValue? c).isSome) (leading : Option Nat) (read rest : List Char) :
    readStringFrom (resume leading) read ('\\' :: 'u' :: (digits ++ rest)) =
      afterUnit (unitValue digits) leading rest >>= fun progress =>
        readStringFrom progress.1 (progress.2.toList ++ read) rest := by
  have checked := checkHex_append four hex rest
  rw [← readStringFrom_digits four]
  cases leading <;> simp [resume, readStringFrom, advance, checked]

@[simp] theorem Literal.chars_nil : Literal.chars [] = [] :=
  rfl

@[simp] theorem Literal.chars_cons (mark : Mark) (marks : Literal) :
    Literal.chars (mark :: marks) = mark.chars ++ Literal.chars marks := by
  simp [Literal.chars]

theorem readStringFrom_chars (literal : Literal) (leading : Option Nat) (read rest : List Char) :
    (readStringFrom (resume leading) read (literal.chars ++ '"' :: rest)).toOption =
      (literal.decodeFrom leading).map fun decoded => (read.reverse ++ decoded, rest) := by
  fun_induction literal.decodeFrom leading generalizing read with
  | case1 => simp [resume, readStringFrom]
  | case2 c raw marks ih =>
      have next := ih (c :: read)
      simp only [Literal.chars_cons, Mark.chars, List.cons_append, List.nil_append, resume] at next ⊢
      rw [readStringFrom_plain raw, next]
      simp [Function.comp_def]
  | case3 letter known marks ih =>
      have next := ih ((escaped? letter).get known :: read)
      simp only [Literal.chars_cons, Mark.chars, List.cons_append, List.nil_append, resume] at next ⊢
      rw [readStringFrom_short (Option.some_get known).symm, next]
      simp [Function.comp_def]
  | case4 digits four hex marks trailing =>
      simp only [Literal.chars_cons, Mark.chars, List.cons_append, List.append_assoc]
      rw [readStringFrom_unit four hex]
      simp [afterUnit, trailing]
  | case5 digits four hex marks notTrailing leads ih =>
      simp only [Literal.chars_cons, Mark.chars, List.cons_append, List.append_assoc]
      rw [readStringFrom_unit four hex, ← ih read]
      simp [afterUnit, notTrailing, leads, resume]
  | case6 digits four hex marks notTrailing notLeading ih =>
      have next := ih (Char.ofNat (unitValue digits) :: read)
      simp only [Literal.chars_cons, Mark.chars, List.cons_append, List.append_assoc]
      rw [readStringFrom_unit four hex]
      simp [afterUnit, notTrailing, notLeading, resume] at next ⊢
      rw [next]
      simp [Function.comp_def]
  | case7 leading digits four hex marks trailing ih =>
      have next := ih (pairedChar leading (unitValue digits) :: read)
      simp only [Literal.chars_cons, Mark.chars, List.cons_append, List.append_assoc]
      rw [readStringFrom_unit four hex]
      simp [afterUnit, trailing, resume] at next ⊢
      rw [next]
      simp [Function.comp_def]
  | case8 leading digits four hex marks notTrailing =>
      simp only [Literal.chars_cons, Mark.chars, List.cons_append, List.append_assoc]
      rw [readStringFrom_unit four hex]
      simp [afterUnit, notTrailing]
  | case9 marks leading noUnit =>
      -- Whatever else stands behind a leading surrogate, it is not the start of a code unit.
      cases marks with
      | nil => simp [resume, readStringFrom, advance]
      | cons mark marks =>
          cases mark with
          | plain c raw => simp [Mark.chars, resume, readStringFrom, advance, raw.2.2]
          | short letter known =>
              have notUnit : letter ≠ 'u' := by
                rintro rfl
                cases known
              simp [Mark.chars, resume, readStringFrom, advance, notUnit]
          | unit digits four hex => exact absurd rfl (noUnit digits four hex marks)

theorem readString_chars (literal : Literal) (rest : List Char) :
    (readString (literal.chars ++ '"' :: rest)).toOption = literal.decode.map (·, rest) :=
  readStringFrom_chars literal none [] rest

theorem plain_of_hexValue {c : Char} (hex : (hexValue? c).isSome) : ' ' ≤ c ∧ c ≠ '"' ∧ c ≠ '\\' := by
  refine ⟨?_, ?_, ?_⟩
  · simp only [hexValue?, Char.le_def, UInt32.le_iff_toNat_le, Char.toNat_val] at hex ⊢
    split at hex
    next decimal => exact Nat.le_trans (by decide) decimal.1
    next =>
      split at hex
      next lower => exact Nat.le_trans (by decide) lower.1
      next =>
        split at hex
        next upper => exact Nat.le_trans (by decide) upper.1
        next => simp at hex
  · rintro rfl
    exact absurd hex (by decide)
  · rintro rfl
    exact absurd hex (by decide)

theorem skipString_plain {c : Char} (raw : ' ' ≤ c ∧ c ≠ '"' ∧ c ≠ '\\') (rest : List Char) :
    skipString (c :: rest) = skipString rest := by
  have notControl : ¬ c < ' ' := Char.not_lt.mpr raw.1
  simp [skipString, raw.2.1, raw.2.2, notControl]

theorem skipString_digits {digits : List Char} (hex : ∀ c ∈ digits, (hexValue? c).isSome)
    (rest : List Char) : skipString (digits ++ rest) = skipString rest := by
  induction digits with
  | nil => rfl
  | cons c digits ih =>
      rw [List.cons_append, skipString_plain (plain_of_hexValue (hex c (by simp))),
        ih fun later member => hex later (by simp [member])]

theorem skipString_chars (literal : Literal) (rest : List Char) :
    skipString (literal.chars ++ '"' :: rest) = .ok rest := by
  induction literal with
  | nil => simp [skipString]
  | cons mark marks ih =>
      cases mark with
      | plain c raw =>
          rw [Literal.chars_cons, Mark.chars, List.cons_append, List.nil_append, List.cons_append,
            skipString_plain raw, ih]
      | short letter known =>
          have notUnit : letter ≠ 'u' := by
            rintro rfl
            cases known
          simp [Mark.chars, skipString, notUnit, known, ih]
      | unit digits four hex =>
          have checked := checkHex_append four hex (Literal.chars marks ++ '"' :: rest)
          simp [Mark.chars, skipString, checked, skipString_digits hex, ih]

theorem literal_of_skipString {text rest : List Char} (skipped : skipString text = .ok rest) :
    ∃ literal : Literal, text = literal.chars ++ '"' :: rest := by
  -- The digits of a code unit are passed over one by one, so the text shrinks by more than a step.
  generalize size : text.length = n
  induction n using Nat.strongRecOn generalizing text with
  | ind n ih =>
      subst size
      revert skipped
      fun_cases skipString text with
      | case1 => simp
      | case2 behind =>
          rintro ⟨rfl⟩
          exact ⟨[], rfl⟩
      | case3 => simp
      | case4 behind checked =>
          intro skipped
          obtain ⟨digits, more, rfl, four, hex⟩ := digits_of_checkHex checked
          rw [skipString_digits hex] at skipped
          have shorter : more.length < ('\\' :: 'u' :: (digits ++ more)).length := by
            simp only [List.length_cons, List.length_append]
            omega
          obtain ⟨literal, rfl⟩ := ih more.length shorter skipped rfl
          exact ⟨.unit digits four hex :: literal, by simp [Mark.chars]⟩
      | case5 => simp
      | case6 letter behind notUnit known =>
          intro skipped
          obtain ⟨literal, rfl⟩ := ih behind.length (by simp only [List.length_cons]; omega) skipped rfl
          exact ⟨.short letter known :: literal, by simp [Mark.chars]⟩
      | case7 => simp
      | case8 => simp
      | case9 c behind noQuote noEscape noEnd control =>
          intro skipped
          obtain ⟨literal, rfl⟩ := ih behind.length (by simp) skipped rfl
          have escape : c ≠ '\\' := by
            intro same
            cases behind : literal.chars ++ '"' :: rest with
            | nil => exact noEscape same behind
            | cons letter more => exact noEnd letter more same behind
          exact ⟨.plain c ⟨Char.not_lt.mp control, noQuote, escape⟩ :: literal, by simp [Mark.chars]⟩

theorem resume_of_afterUnit {unit : Nat} {leading : Option Nat} {rest : List Char} {progress : Progress}
    (after : afterUnit unit leading rest = .ok progress) : ∃ next, progress.1 = resume next := by
  revert after
  fun_cases afterUnit unit leading rest with
  | case1 => rintro ⟨rfl⟩; exact ⟨none, rfl⟩
  | case2 => simp
  | case3 => simp
  | case4 => rintro ⟨rfl⟩; exact ⟨some unit, rfl⟩
  | case5 => rintro ⟨rfl⟩; exact ⟨none, rfl⟩

theorem unit_of_readStringFrom {leading : Option Nat} {read behind decoded rest : List Char}
    (found : readStringFrom (resume leading) read ('\\' :: 'u' :: behind) = .ok (decoded, rest)) :
    ∃ mark next read' more, '\\' :: 'u' :: behind = Mark.chars mark ++ more ∧
      readStringFrom (resume next) read' more = .ok (decoded, rest) := by
  cases checked : checkHex behind with
  | error fault => cases leading <;> simp [resume, readStringFrom, advance, checked] at found
  | ok _ =>
      obtain ⟨digits, more, rfl, four, hex⟩ := digits_of_checkHex checked
      rw [readStringFrom_unit four hex, bind_eq_ok_iff] at found
      obtain ⟨progress, after, found⟩ := found
      obtain ⟨next, same⟩ := resume_of_afterUnit after
      rw [same] at found
      exact ⟨.unit digits four hex, next, _, more, rfl, found⟩

theorem short_of_readStringFrom {leading : Option Nat} {letter : Char}
    {read behind decoded rest : List Char} (notUnit : letter ≠ 'u')
    (found : readStringFrom (resume leading) read ('\\' :: letter :: behind) = .ok (decoded, rest)) :
    ∃ mark next read' more, '\\' :: letter :: behind = Mark.chars mark ++ more ∧
      readStringFrom (resume next) read' more = .ok (decoded, rest) := by
  cases leading with
  | some leading => simp [resume, readStringFrom, advance, notUnit] at found
  | none =>
      cases known : escaped? letter with
      | none => simp [resume, readStringFrom, advance, notUnit, known] at found
      | some c =>
          rw [resume, readStringFrom_short known] at found
          exact ⟨.short letter (by simp [known]), none, c :: read, behind, rfl, found⟩

theorem plain_of_readStringFrom {leading : Option Nat} {c : Char} {read behind decoded rest : List Char}
    (escape : c ≠ '\\') (quote : c ≠ '"')
    (found : readStringFrom (resume leading) read (c :: behind) = .ok (decoded, rest)) :
    ∃ mark next read' more, c :: behind = Mark.chars mark ++ more ∧
      readStringFrom (resume next) read' more = .ok (decoded, rest) := by
  cases leading with
  | some leading => simp [resume, readStringFrom, advance, escape] at found
  | none =>
      by_cases control : c < ' '
      · simp [resume, readStringFrom, advance, quote, escape, control] at found
      · have raw : ' ' ≤ c ∧ c ≠ '"' ∧ c ≠ '\\' := ⟨Char.not_lt.mp control, quote, escape⟩
        rw [resume, readStringFrom_plain raw] at found
        exact ⟨.plain c raw, none, c :: read, behind, rfl, found⟩

theorem mark_of_readStringFrom {leading : Option Nat} {read text decoded rest : List Char}
    (found : readStringFrom (resume leading) read text = .ok (decoded, rest)) :
    text = '"' :: rest ∨ ∃ mark next read' more, text = Mark.chars mark ++ more ∧
      readStringFrom (resume next) read' more = .ok (decoded, rest) := by
  cases text with
  | nil => simp [readStringFrom] at found
  | cons c behind =>
      by_cases escape : c = '\\'
      · subst escape
        refine .inr ?_
        cases behind with
        | nil => cases leading <;> simp [resume, readStringFrom, advance] at found
        | cons letter behind =>
            by_cases isUnit : letter = 'u'
            · subst isUnit
              exact unit_of_readStringFrom found
            · exact short_of_readStringFrom isUnit found
      · by_cases quote : c = '"'
        · subst quote
          cases leading with
          | none =>
              simp only [resume, readStringFrom, Except.ok.injEq, Prod.mk.injEq] at found
              exact .inl (congrArg _ found.2)
          | some leading => simp [resume, readStringFrom, advance] at found
        · exact .inr (plain_of_readStringFrom escape quote found)

theorem literal_of_readStringFrom {leading : Option Nat} {read text decoded rest : List Char}
    (found : readStringFrom (resume leading) read text = .ok (decoded, rest)) :
    ∃ literal : Literal, text = literal.chars ++ '"' :: rest := by
  generalize size : text.length = n
  induction n using Nat.strongRecOn generalizing leading read text with
  | ind n ih =>
      subst size
      rcases mark_of_readStringFrom found with rfl | ⟨mark, next, read', more, rfl, later⟩
      · exact ⟨[], rfl⟩
      · have shorter : more.length < (mark.chars ++ more).length := by
          cases mark <;> simp only [Mark.chars, List.length_append, List.length_cons] <;> omega
        obtain ⟨literal, rfl⟩ := ih more.length shorter later rfl
        exact ⟨mark :: literal, by simp⟩

theorem literal_of_readString {text decoded rest : List Char}
    (found : readString text = .ok (decoded, rest)) :
    ∃ literal : Literal, text = literal.chars ++ '"' :: rest :=
  literal_of_readStringFrom (show readStringFrom (resume none) [] text = _ from found)

end Redline.Json
