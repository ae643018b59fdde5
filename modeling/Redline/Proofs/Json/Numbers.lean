import Redline.Proofs.Json.Outcome
import Redline.Proofs.Json.Syntax

/-! Numbers against their spelling. A numeral that nothing extends is read as its value, if it has
one that is not too great, and is passed over in any case. -/

namespace Redline.Json

def scaled? (negative : Bool) (digits : Nat) (power : Int) : Option Number :=
  (scale? (UInt64.ofNat digits).toFloat power).map fun x => .float (if negative then -x else x)

namespace Exponent

def down (exponent : Exponent) : Bool :=
  exponent.sign = ['-']

def scaled? (exponent : Exponent) (negative : Bool) (digits : Nat) (power : Int) : Option Number :=
  match (exponentValue 0 exponent.digits.chars []).toOption with
  | some value =>
    Json.scaled? negative digits (if exponent.down then power - value else power + value)
  | none =>
    if digits ≠ 0 ∧ !exponent.down then none else some (.float (if negative then -0.0 else 0.0))

end Exponent

namespace Numeral

/-- The value behind the whole part, which gave so many digits and left so many. -/
def tailValue? (numeral : Numeral) (digits left : Nat) : Option Number :=
  match numeral.fraction, numeral.exponent with
  | none, none => if left = 0 then some (wholeNumber numeral.negative digits)
    else scaled? numeral.negative digits left
  | none, some exponent => exponent.scaled? numeral.negative digits left
  | some fraction, exponent =>
    let (all, more) := gather digits fraction.chars
    let power : Int := left - (fraction.chars.length - more : Nat)
    match exponent with
    | none => scaled? numeral.negative all power
    | some exponent => exponent.scaled? numeral.negative all power

def value? (numeral : Numeral) : Option Number :=
  let (digits, left) := gather 0 numeral.whole.chars
  numeral.tailValue? digits left

end Numeral

def NoDigit (text : List Char) : Prop :=
  ∀ c ∈ text.head?, isDigit c = false

@[simp] theorem noDigit_cons {c : Char} {rest : List Char} : NoDigit (c :: rest) ↔ isDigit c = false := by
  simp [NoDigit]

theorem Delimited.noDigit {text : List Char} (delimited : Delimited text) : NoDigit text := by
  intro c first
  have := delimited c first
  simp only [extendsNumber, Bool.or_eq_false_iff] at this
  exact this.1.1

theorem not_isDigit_of_isExponent {c : Char} (letter : isExponent c = true) : isDigit c = false := by
  simp only [isExponent, Bool.or_eq_true, decide_eq_true_eq] at letter
  rcases letter with rfl | rfl <;> decide

theorem ne_point_of_isExponent {c : Char} (letter : isExponent c = true) : c ≠ '.' := by
  rintro rfl
  exact absurd letter (by decide)

namespace Digits

variable (digits : Digits) {rest : List Char}

theorem takeWhile_append (noDigit : NoDigit rest) :
    (digits.chars ++ rest).takeWhile isDigit = digits.chars := by
  rw [List.takeWhile_append_of_pos digits.digits]
  cases rest with
  | nil => simp
  | cons c rest =>
      rw [noDigit_cons] at noDigit
      rw [List.takeWhile_cons_of_neg (by simp [noDigit]), List.append_nil]

theorem dropWhile_append (noDigit : NoDigit rest) : (digits.chars ++ rest).dropWhile isDigit = rest := by
  rw [List.dropWhile_append_of_pos digits.digits]
  cases rest with
  | nil => rfl
  | cons c rest =>
      rw [noDigit_cons] at noDigit
      rw [List.dropWhile_cons_of_neg (by simp [noDigit])]

end Digits

theorem toOption_exponentValue (value : Nat) (digits rest : List Char) :
    (exponentValue value digits rest).toOption = (exponentValue value digits []).toOption := by
  induction digits generalizing value with
  | nil => rfl
  | cons digit digits ih =>
      rw [exponentValue, exponentValue]
      split
      · rfl
      · exact ih _

theorem toOption_finish (negative : Bool) (digits : Nat) (power : Int) (rest : List Char) :
    (finish negative digits power rest).toOption = (scaled? negative digits power).map (·, rest) := by
  rw [finish, scaled?]
  cases scale? (UInt64.ofNat digits).toFloat power <;> simp

theorem takeSign_append (exponent : Exponent) (rest : List Char) :
    takeSign (exponent.sign ++ (exponent.digits.chars ++ rest)) =
      (exponent.down, exponent.digits.chars ++ rest) := by
  rw [Exponent.down]
  rcases exponent.isSign with sign | sign | sign
  · obtain ⟨c, more, chars, digit⟩ := exponent.digits.exists_cons
    rw [sign, chars]
    have plus : c ≠ '+' := by
      rintro rfl
      exact absurd digit (by decide)
    have minus : c ≠ '-' := by
      rintro rfl
      exact absurd digit (by decide)
    simp [takeSign, plus, minus]
  · rw [sign]; rfl
  · rw [sign]; rfl

theorem toOption_readExponent (exponent : Exponent) (negative : Bool) (digits : Nat) (power : Int)
    {rest : List Char} (noDigit : NoDigit rest) :
    (readExponent negative digits power (exponent.sign ++ (exponent.digits.chars ++ rest))).toOption =
      (exponent.scaled? negative digits power).map (·, rest) := by
  obtain ⟨c, more, chars, digit⟩ := exponent.digits.exists_cons
  have taken := exponent.digits.takeWhile_append noDigit
  have dropped := exponent.digits.dropWhile_append noDigit
  have value := toOption_exponentValue 0 exponent.digits.chars rest
  rw [readExponent, takeSign_append, Exponent.scaled?, ← value]
  rw [chars, List.cons_append] at taken dropped ⊢
  simp only [taken, dropped, digit]
  rw [if_neg (by simp)]
  cases exponentValue 0 (c :: more) rest with
  | ok value => exact toOption_finish negative digits _ rest
  | error left =>
      by_cases great : digits ≠ 0 ∧ (!exponent.down) = true
      · simp only [great, Except.toOption, ↓reduceIte, ne_eq, not_false_eq_true, and_self, faultHere,
          Option.map_none]
      · simp only [great, ↓reduceIte, Except.toOption, Option.map_some]

theorem skipExponent_append (exponent : Exponent) {rest : List Char} (noDigit : NoDigit rest) :
    skipExponent (exponent.sign ++ (exponent.digits.chars ++ rest)) = .ok rest := by
  have dropped := exponent.digits.dropWhile_append noDigit
  rw [skipExponent, takeSign_append]
  obtain ⟨c, more, chars, digit⟩ := exponent.digits.exists_cons
  rw [chars, List.cons_append] at dropped ⊢
  rw [List.dropWhile_cons_of_pos digit] at dropped
  simp [digit, dropped]

theorem head_exponentTail (exponent : Option Exponent) {rest : List Char} (delimited : Delimited rest) :
    ∀ c ∈ (exponent.elim [] Exponent.chars ++ rest).head?, isDigit c = false ∧ c ≠ '.' := by
  intro c first
  cases exponent with
  | none =>
      have other := delimited c first
      simp only [extendsNumber, Bool.or_eq_false_iff, decide_eq_false_iff_not] at other
      exact other.1
  | some exponent =>
      obtain rfl : exponent.letter = c := by simpa [Exponent.chars] using first
      exact ⟨not_isDigit_of_isExponent exponent.isLetter, ne_point_of_isExponent exponent.isLetter⟩

theorem noDigit_exponentTail (exponent : Option Exponent) {rest : List Char}
    (delimited : Delimited rest) :
    NoDigit (exponent.elim [] Exponent.chars ++ rest) :=
  fun c first => (head_exponentTail exponent delimited c first).1

theorem toOption_readFraction (numeral : Numeral) {fraction : Digits}
    (has : numeral.fraction = some fraction)
    (digits left : Nat) {rest : List Char} (delimited : Delimited rest) :
    (readFraction numeral.negative digits left (fraction.chars ++
      (numeral.exponent.elim [] Exponent.chars ++ rest))).toOption =
        (numeral.tailValue? digits left).map (·, rest) := by
  have noDigit := noDigit_exponentTail numeral.exponent delimited
  have taken := fraction.takeWhile_append noDigit
  have dropped := fraction.dropWhile_append noDigit
  obtain ⟨c, more, chars, digit⟩ := fraction.exists_cons
  rw [readFraction, Numeral.tailValue?, has]
  dsimp only
  rw [chars] at taken dropped ⊢
  simp only [taken, dropped]
  generalize gather digits (c :: more) = gathered
  obtain ⟨all, more⟩ := gathered
  cases numeral.exponent with
  | none =>
      cases rest with
      | nil => simp only [Option.elim_none, List.append_nil, toOption_finish]
      | cons next rest =>
          have other := delimited next (by simp)
          simp only [extendsNumber, Bool.or_eq_false_iff] at other
          simp only [Option.elim_none, List.nil_append, other.2, Bool.false_eq_true, ↓reduceIte,
            toOption_finish]
  | some exponent =>
      simp only [Option.elim_some, Exponent.chars, List.cons_append, exponent.isLetter, ↓reduceIte,
        List.append_assoc, toOption_readExponent exponent numeral.negative all _ delimited.noDigit]

theorem toOption_readTail (numeral : Numeral) (digits left : Nat) {rest : List Char}
    (delimited : Delimited rest) :
    (readTail numeral.negative digits left (numeral.tail ++ rest)).toOption =
      (numeral.tailValue? digits left).map (·, rest) := by
  rw [Numeral.tail, List.append_assoc]
  cases fraction : numeral.fraction with
  | some fraction' => exact toOption_readFraction numeral fraction digits left delimited
  | none =>
      rw [Numeral.tailValue?, fraction]
      cases numeral.exponent with
      | none =>
          have ended : readTail numeral.negative digits left rest =
              readTail.plain numeral.negative digits left rest := by
            cases rest with
            | nil => rfl
            | cons c rest =>
                have other := delimited c (by simp)
                simp only [extendsNumber, Bool.or_eq_false_iff, decide_eq_false_iff_not] at other
                rw [readTail]
                · simp [other.2]
                · exact other.1.2
          simp only [Option.elim_none, List.nil_append, ended, readTail.plain]
          split
          · rfl
          · exact toOption_finish _ _ _ _
      | some exponent =>
          have point := ne_point_of_isExponent exponent.isLetter
          simp only [Option.elim_none, Option.elim_some, Exponent.chars, List.nil_append,
            List.cons_append, List.append_assoc]
          rw [readTail]
          · simp only [exponent.isLetter, ↓reduceIte]
            exact toOption_readExponent exponent numeral.negative digits left delimited.noDigit
          · exact point

theorem noDigit_tail (numeral : Numeral) {rest : List Char} (delimited : Delimited rest) :
    NoDigit (numeral.tail ++ rest) := by
  rw [Numeral.tail, List.append_assoc]
  cases numeral.fraction with
  | none => exact noDigit_exponentTail numeral.exponent delimited
  | some fraction => exact noDigit_cons.mpr (by decide)

theorem readNumber_zero (negative : Bool) {text : List Char} (noDigit : NoDigit text) :
    readNumber negative ('0' :: text) = readTail negative 0 0 text := by
  cases text with
  | nil => rfl
  | cons c rest =>
      rw [noDigit_cons] at noDigit
      simp [readNumber, noDigit]

theorem toOption_readNumber (numeral : Numeral) {rest : List Char} (delimited : Delimited rest) :
    (readNumber numeral.negative (numeral.unsigned ++ rest)).toOption = numeral.value?.map (·, rest) := by
  have noDigit := noDigit_tail numeral delimited
  have taken := numeral.whole.takeWhile_append noDigit
  have dropped := numeral.whole.dropWhile_append noDigit
  have behind := fun digits left => toOption_readTail numeral digits left delimited
  obtain ⟨c, more, chars, digit⟩ := numeral.whole.exists_cons
  have plainZero := numeral.plainZero
  rw [Numeral.unsigned, List.append_assoc, Numeral.value?]
  rw [chars] at taken dropped plainZero ⊢
  by_cases zero : c = '0'
  · obtain rfl : more = [] := by simpa [zero] using plainZero
    subst zero
    exact (congrArg _ (readNumber_zero numeral.negative noDigit)).trans (behind 0 0)
  · rw [List.cons_append] at taken dropped ⊢
    rw [readNumber]
    · simp only [digit, taken, dropped, ↓reduceIte, behind]
    · exact zero

theorem skipTail_exponent (exponent : Option Exponent) {rest : List Char} (delimited : Delimited rest) :
    skipTail (exponent.elim [] Exponent.chars ++ rest) = .ok rest := by
  cases exponent with
  | some exponent =>
      have point := ne_point_of_isExponent exponent.isLetter
      rw [Option.elim_some, Exponent.chars, List.cons_append, List.append_assoc, skipTail]
      · simp only [exponent.isLetter, ↓reduceIte]
        exact skipExponent_append exponent delimited.noDigit
      · exact point
  | none =>
      cases rest with
      | nil => rfl
      | cons c rest =>
          have other := delimited c (by simp)
          simp only [extendsNumber, Bool.or_eq_false_iff, decide_eq_false_iff_not] at other
          rw [Option.elim_none, List.nil_append, skipTail]
          · simp [other.2]
          · exact other.1.2

theorem skipTail_tail (numeral : Numeral) {rest : List Char} (delimited : Delimited rest) :
    skipTail (numeral.tail ++ rest) = .ok rest := by
  rw [Numeral.tail, List.append_assoc]
  cases numeral.fraction with
  | none => exact skipTail_exponent numeral.exponent delimited
  | some fraction =>
      have dropped := fraction.dropWhile_append (noDigit_exponentTail numeral.exponent delimited)
      obtain ⟨c, more, chars, digit⟩ := fraction.exists_cons
      rw [Option.elim_some, chars, List.cons_append]
      rw [chars] at dropped
      simp only [List.cons_append] at dropped ⊢
      simp only [skipTail, digit, dropped]
      have behind := skipTail_exponent numeral.exponent delimited
      rw [if_neg (by simp), ← behind]
      cases text : numeral.exponent.elim [] Exponent.chars ++ rest with
      | nil => rfl
      | cons c more =>
          rw [skipTail]
          exact (head_exponentTail numeral.exponent delimited c (by simp [text])).2

theorem skipNumber_unsigned (numeral : Numeral) {rest : List Char} (delimited : Delimited rest) :
    skipNumber (numeral.unsigned ++ rest) = .ok rest := by
  have noDigit := noDigit_tail numeral delimited
  have dropped := numeral.whole.dropWhile_append noDigit
  have behind := skipTail_tail numeral delimited
  obtain ⟨c, more, chars, digit⟩ := numeral.whole.exists_cons
  have plainZero := numeral.plainZero
  rw [Numeral.unsigned, List.append_assoc]
  rw [chars] at dropped plainZero ⊢
  by_cases zero : c = '0'
  · obtain rfl : more = [] := by simpa [zero] using plainZero
    subst zero
    cases text : numeral.tail ++ rest with
    | nil => rw [text] at behind; exact behind
    | cons c later =>
        rw [text] at noDigit behind
        rw [noDigit_cons] at noDigit
        simpa [skipNumber, noDigit] using behind
  · rw [List.cons_append] at dropped ⊢
    rw [List.dropWhile_cons_of_pos digit] at dropped
    rw [skipNumber]
    · simp only [digit, dropped, ↓reduceIte, behind]
    · exact zero

theorem exists_digits {c : Char} (digit : isDigit c = true) (text : List Char) :
    ∃ digits : Digits, c :: text = digits.chars ++ (c :: text).dropWhile isDigit := by
  refine ⟨⟨(c :: text).takeWhile isDigit, ?_, fun _ member => List.mem_takeWhile_imp member⟩,
    (List.takeWhile_append_dropWhile).symm⟩
  rw [List.takeWhile_cons_of_pos digit]
  simp

theorem exists_sign (text : List Char) :
    ∃ sign, (sign = [] ∨ sign = ['+'] ∨ sign = ['-']) ∧ text = sign ++ (takeSign text).2 := by
  fun_cases takeSign text with
  | case1 rest => exact ⟨['+'], by simp, rfl⟩
  | case2 rest => exact ⟨['-'], by simp, rfl⟩
  | case3 => exact ⟨[], by simp, rfl⟩

theorem exponent_of_skipExponent {letter : Char} (isLetter : isExponent letter = true)
    {text rest : List Char} (skipped : skipExponent text = .ok rest) :
    ∃ exponent : Exponent, letter :: text = exponent.chars ++ rest := by
  obtain ⟨sign, isSign, whole⟩ := exists_sign text
  revert skipped
  fun_cases skipExponent text with
  | case1 => simp
  | case2 c behind found digit =>
      rintro ⟨rfl⟩
      obtain ⟨digits, same⟩ := exists_digits digit behind
      rw [List.dropWhile_cons_of_pos digit] at same
      refine ⟨⟨letter, sign, digits, isLetter, isSign⟩, ?_⟩
      rw [whole, found, same, Exponent.chars]
      simp
  | case3 => simp

theorem tail_of_skipTail {text rest : List Char} (skipped : skipTail text = .ok rest) :
    ∃ (fraction : Option Digits) (exponent : Option Exponent),
      text = (fraction.elim [] fun fraction => '.' :: fraction.chars) ++
        (exponent.elim [] Exponent.chars ++ rest) := by
  revert skipped
  fun_cases skipTail text with
  | case1 => simp
  | case2 => simp
  | case3 c behind isDigit letter more isLetter found =>
      simp only [found, isLetter, ↓reduceIte]
      intro skipped
      obtain ⟨digits, same⟩ := exists_digits (by simpa using isDigit) behind
      rw [found] at same
      obtain ⟨exponent, more⟩ := exponent_of_skipExponent isLetter skipped
      exact ⟨some digits, some exponent, by simp [same, more]⟩
  | case4 c behind isDigit next more isLetter found =>
      simp only [found, isLetter]
      rintro ⟨rfl⟩
      obtain ⟨digits, same⟩ := exists_digits (by simpa using isDigit) behind
      rw [found] at same
      exact ⟨some digits, none, by simp [same]⟩
  | case5 c behind isDigit found =>
      simp only [found]
      rintro ⟨rfl⟩
      obtain ⟨digits, same⟩ := exists_digits (by simpa using isDigit) behind
      rw [found] at same
      exact ⟨some digits, none, by simp [same]⟩
  | case6 letter behind _ isLetter =>
      intro skipped
      obtain ⟨exponent, more⟩ := exponent_of_skipExponent isLetter skipped
      exact ⟨none, some exponent, by simp [more]⟩
  | case7 =>
      rintro ⟨rfl⟩
      exact ⟨none, none, rfl⟩
  | case8 =>
      rintro ⟨rfl⟩
      exact ⟨none, none, rfl⟩

theorem numeral_of_skipNumber (negative : Bool) {text rest : List Char}
    (skipped : skipNumber text = .ok rest) :
    ∃ numeral : Numeral, numeral.negative = negative ∧ text = numeral.unsigned ++ rest := by
  have make (whole : Digits) (plainZero : whole.chars.head? = some '0' → whole.chars = ['0'])
      {behind : List Char} (skipped : skipTail behind = .ok rest) :
      ∃ numeral : Numeral, numeral.negative = negative ∧
        whole.chars ++ behind = numeral.unsigned ++ rest := by
    obtain ⟨fraction, exponent, rfl⟩ := tail_of_skipTail skipped
    exact ⟨⟨negative, whole, fraction, exponent, plainZero⟩, rfl,
      by simp [Numeral.unsigned, Numeral.tail]⟩
  revert skipped
  fun_cases skipNumber text with
  | case1 => simp
  | case2 => simp
  | case3 c behind notDigit =>
      intro skipped
      exact make ⟨['0'], by simp, List.forall_mem_singleton.mpr rfl⟩ (fun _ => rfl) skipped
  | case4 =>
      intro skipped
      exact make ⟨['0'], by simp, List.forall_mem_singleton.mpr rfl⟩ (fun _ => rfl) skipped
  | case5 c behind notZero digit =>
      intro skipped
      obtain ⟨digits, same⟩ := exists_digits digit behind
      rw [List.dropWhile_cons_of_pos digit] at same
      rw [same]
      refine make digits (fun zero => ?_) skipped
      obtain ⟨first, more, chars, _⟩ := digits.exists_cons
      rw [chars, List.cons_append, List.cons.injEq] at same
      rw [chars, List.head?_cons, ← same.1] at zero
      exact absurd (Option.some.inj zero) notZero
  | case6 => simp

theorem rest_of_finish {negative : Bool} {digits : Nat} {power : Int} {number : Number}
    {text rest : List Char}
    (finished : finish negative digits power text = .ok (number, rest)) : text = rest := by
  rw [finish] at finished
  split at finished
  · exact (Prod.mk.inj (Except.ok.inj finished)).2
  · simp at finished

theorem skipExponent_of_readExponent {negative : Bool} {digits : Nat} {power : Int} {number : Number}
    {text rest : List Char} (read : readExponent negative digits power text = .ok (number, rest)) :
    skipExponent text = .ok rest := by
  rw [readExponent] at read
  rw [skipExponent]
  cases behind : (takeSign text).2 with
  | nil => simp [behind] at read
  | cons c more =>
      simp only [behind] at read
      split at read
      · simp at read
      next digit =>
        have digit : isDigit c = true := by simpa using digit
        have kept : (c :: more).dropWhile isDigit = rest := by
          split at read
          · exact rest_of_finish read
          · split at read
            · simp at read
            · exact (Prod.mk.inj (Except.ok.inj read)).2
        rw [List.dropWhile_cons_of_pos digit] at kept
        simp [digit, kept]

theorem skipTail_of_readFraction {negative : Bool} {whole : Nat} {power : Int} {number : Number}
    {text rest : List Char} (read : readFraction negative whole power text = .ok (number, rest)) :
    skipTail ('.' :: text) = .ok rest := by
  cases text with
  | nil => simp [readFraction] at read
  | cons c behind =>
      rw [readFraction] at read
      by_cases digit : isDigit c = true
      · rw [List.takeWhile_cons_of_pos digit] at read
        simp only [skipTail, digit]
        cases found : (c :: behind).dropWhile isDigit with
        | nil =>
            simp only [found] at read
            rw [← rest_of_finish read]
            rfl
        | cons next more =>
            simp only [found] at read
            split at read
            next isLetter => simpa [isLetter] using skipExponent_of_readExponent read
            next isLetter => simpa [isLetter] using rest_of_finish read
      · rw [List.takeWhile_cons_of_neg digit, List.dropWhile_cons_of_neg digit] at read
        simp at read

theorem rest_of_plain {negative : Bool} {digits left : Nat} {number : Number} {text rest : List Char}
    (read : readTail.plain negative digits left text = .ok (number, rest)) : text = rest := by
  rw [readTail.plain] at read
  split at read
  · exact (Prod.mk.inj (Except.ok.inj read)).2
  · exact rest_of_finish read

theorem skipTail_of_readTail {negative : Bool} {digits left : Nat} {number : Number}
    {text rest : List Char}
    (read : readTail negative digits left text = .ok (number, rest)) : skipTail text = .ok rest := by
  revert read
  fun_cases readTail negative digits left text with
  | case1 behind => exact skipTail_of_readFraction
  | case2 c behind point isLetter =>
      intro read
      rw [skipTail]
      · simpa [isLetter] using skipExponent_of_readExponent read
      · exact point
  | case3 c behind point isLetter =>
      intro read
      rw [skipTail]
      · simpa [isLetter] using rest_of_plain read
      · exact point
  | case4 =>
      intro read
      rw [← rest_of_plain read]
      rfl

theorem skipNumber_of_readNumber {negative : Bool} {number : Number} {text rest : List Char}
    (read : readNumber negative text = .ok (number, rest)) : skipNumber text = .ok rest := by
  revert read
  fun_cases readNumber negative text with
  | case1 => simp
  | case2 => simp
  | case3 c behind notDigit =>
      intro read
      simpa [skipNumber, notDigit] using skipTail_of_readTail read
  | case4 => exact skipTail_of_readTail
  | case5 c behind notZero digit whole digits left gathered =>
      intro read
      rw [skipNumber]
      · rw [if_pos digit, ← List.dropWhile_cons_of_pos digit]
        exact skipTail_of_readTail read
      · exact notZero
  | case6 => simp

end Redline.Json
