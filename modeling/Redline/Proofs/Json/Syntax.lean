import Mathlib.Data.List.DropRight
import Mathlib.Data.List.TakeWhile
import Redline.Json.Number

/-! The grammar of JSON texts. A tree holds the tokens of a value as they are written, and a text
spells a tree if it is made of the tree's tokens with any spaces between them. -/

namespace Redline.Json

abbrev Token := List Char

inductive Mark where
  | plain (c : Char) (raw : ' ' ≤ c ∧ c ≠ '"' ∧ c ≠ '\\')
  | short (letter : Char) (known : (escaped? letter).isSome)
  | unit (digits : List Char) (four : digits.length = 4) (hex : ∀ c ∈ digits, (hexValue? c).isSome)

def Mark.chars : Mark → List Char
  | .plain c _ => [c]
  | .short letter _ => ['\\', letter]
  | .unit digits _ _ => '\\' :: 'u' :: digits

abbrev Literal := List Mark

def Literal.chars (literal : Literal) : List Char :=
  literal.flatMap Mark.chars

def Literal.token (literal : Literal) : Token :=
  '"' :: (literal.chars ++ ['"'])

structure Digits where
  chars : List Char
  some : chars ≠ []
  digits : ∀ c ∈ chars, isDigit c = true

structure Exponent where
  letter : Char
  sign : List Char
  digits : Digits
  isLetter : isExponent letter = true
  isSign : sign = [] ∨ sign = ['+'] ∨ sign = ['-']

def Exponent.chars (exponent : Exponent) : List Char :=
  exponent.letter :: (exponent.sign ++ exponent.digits.chars)

structure Numeral where
  negative : Bool
  whole : Digits
  fraction : Option Digits
  exponent : Option Exponent
  plainZero : whole.chars.head? = some '0' → whole.chars = ['0']

namespace Numeral

def tail (numeral : Numeral) : List Char :=
  (numeral.fraction.elim [] fun fraction => '.' :: fraction.chars) ++
    numeral.exponent.elim [] Exponent.chars

def unsigned (numeral : Numeral) : List Char :=
  numeral.whole.chars ++ numeral.tail

def token (numeral : Numeral) : Token :=
  if numeral.negative then '-' :: numeral.unsigned else numeral.unsigned

end Numeral

inductive Tree where
  | null
  | bool (value : Bool)
  | number (numeral : Numeral)
  | string (literal : Literal)
  | array (elements : List Tree)
  | object (members : List (Literal × Tree))

def separated : List (List Token) → List Token
  | [] => []
  | item :: items => item ++ items.flatMap ([','] :: ·)

mutual

def Tree.tokens : Tree → List Token
  | .null => [['n', 'u', 'l', 'l']]
  | .bool true => [['t', 'r', 'u', 'e']]
  | .bool false => [['f', 'a', 'l', 's', 'e']]
  | .number numeral => [numeral.token]
  | .string literal => [literal.token]
  | .array elements => ['['] :: (separated (elementTokens elements) ++ [[']']])
  | .object members => ['{'] :: (separated (memberTokens members) ++ [['}']])

def elementTokens : List Tree → List (List Token)
  | [] => []
  | tree :: elements => tree.tokens :: elementTokens elements

def memberTokens : List (Literal × Tree) → List (List Token)
  | [] => []
  | (key, tree) :: members => (key.token :: [':'] :: tree.tokens) :: memberTokens members

end

/-- A text of tokens with any spaces in front of each, and the text that follows them. -/
inductive Spaced : List Char → List Token → List Char → Prop
  | done (rest : List Char) : Spaced rest [] rest
  | token {gap token text : List Char} {tokens : List Token} {rest : List Char} :
      (∀ c ∈ gap, isSpace c = true) → token ≠ [] → Spaced text tokens rest →
        Spaced (gap ++ (token ++ text)) (token :: tokens) rest

def Spells (text : List Char) (tree : Tree) : Prop :=
  ∃ rest, Spaced text tree.tokens rest ∧ ∀ c ∈ rest, isSpace c = true

def extendsNumber (c : Char) : Bool :=
  isDigit c || c = '.' || isExponent c

def Delimited (text : List Char) : Prop :=
  ∀ c ∈ text.head?, extendsNumber c = false

theorem elementTokens_eq_map (elements : List Tree) :
    elementTokens elements = elements.map Tree.tokens := by
  induction elements with
  | nil => rfl
  | cons tree elements ih => rw [elementTokens, ih, List.map_cons]

def memberTokensOf (member : Literal × Tree) : List Token :=
  member.1.token :: [':'] :: member.2.tokens

theorem memberTokens_eq_map (members : List (Literal × Tree)) :
    memberTokens members = members.map memberTokensOf := by
  induction members with
  | nil => rfl
  | cons member members ih =>
      obtain ⟨key, tree⟩ := member
      rw [memberTokens, ih, List.map_cons]
      rfl

namespace Spaced

theorem append {text mid rest : List Char} {first second : List Token} (front : Spaced text first mid)
    (back : Spaced mid second rest) : Spaced text (first ++ second) rest := by
  induction front with
  | done => exact back
  | token blank some _ ih => exact .token blank some (ih back)

theorem split {text rest : List Char} {first second : List Token}
    (spaced : Spaced text (first ++ second) rest) :
    ∃ mid, Spaced text first mid ∧ Spaced mid second rest := by
  induction first generalizing text with
  | nil => exact ⟨text, .done text, spaced⟩
  | cons token first ih =>
      cases spaced with
      | token blank some behind =>
          obtain ⟨mid, front, back⟩ := ih behind
          exact ⟨mid, .token blank some front, back⟩

theorem extend {text rest : List Char} {tokens : List Token} (spaced : Spaced text tokens rest)
    (more : List Char) : Spaced (text ++ more) tokens (rest ++ more) := by
  induction spaced with
  | done rest => exact .done _
  | token blank some _ ih =>
      rw [List.append_assoc, List.append_assoc]
      exact .token blank some ih

theorem length_le {text rest : List Char} {tokens : List Token} (spaced : Spaced text tokens rest) :
    tokens.length ≤ text.length := by
  induction spaced with
  | done rest => simp
  | @token gap token text tokens rest blank some behind ih =>
      have := List.length_pos_iff.mpr some
      simp only [List.length_append, List.length_cons]
      omega

end Spaced

theorem Spells.append {text more : List Char} {tree : Tree} (spells : Spells text tree)
    (blank : ∀ c ∈ more, isSpace c = true) : Spells (text ++ more) tree := by
  obtain ⟨rest, spaced, ended⟩ := spells
  exact ⟨rest ++ more, spaced.extend more, List.forall_mem_append.mpr ⟨ended, blank⟩⟩

theorem skipSpaces_append {gap text : List Char} (blank : ∀ c ∈ gap, isSpace c = true) :
    skipSpaces (gap ++ text) = skipSpaces text := by
  rw [skipSpaces, List.dropWhile_append_of_pos blank, skipSpaces]

theorem skipSpaces_eq_nil_iff {text : List Char} :
    skipSpaces text = [] ↔ ∀ c ∈ text, isSpace c = true := by
  simp [skipSpaces, List.dropWhile_eq_nil_iff]

theorem spaced_cons_iff {text token rest : List Char} {c : Char} {tokens : List Token}
    (solid : isSpace c = false) : Spaced text ((c :: token) :: tokens) rest ↔
      ∃ behind, skipSpaces text = c :: (token ++ behind) ∧ Spaced behind tokens rest := by
  constructor
  · intro spaced
    cases spaced with
    | token blank _ behind =>
        refine ⟨_, ?_, behind⟩
        rw [skipSpaces_append blank, List.cons_append, skipSpaces,
          List.dropWhile_cons_of_neg (by simp [solid])]
  · rintro ⟨behind, found, spaced⟩
    have whole : text = text.takeWhile isSpace ++ ((c :: token) ++ behind) := by
      rw [List.cons_append, ← found, skipSpaces, List.takeWhile_append_dropWhile]
    rw [whole]
    exact .token (fun c member => List.mem_takeWhile_imp member) (by simp) spaced

@[simp] theorem spaced_nil_iff {text rest : List Char} : Spaced text [] rest ↔ text = rest := by
  constructor
  · rintro ⟨⟩
    rfl
  · rintro rfl
    exact .done text

theorem skipSpaces_skipSpaces (text : List Char) : skipSpaces (skipSpaces text) = skipSpaces text :=
  List.dropWhile_idempotent _ _

theorem not_extendsNumber_of_isSpace {c : Char} (space : isSpace c = true) : extendsNumber c = false := by
  simp only [isSpace, Bool.or_eq_true, decide_eq_true_eq] at space
  rcases space with ((rfl | rfl) | rfl) | rfl <;> decide

theorem delimited_of_spaces {text : List Char} (blank : ∀ c ∈ text, isSpace c = true) : Delimited text :=
  fun c first => not_extendsNumber_of_isSpace (blank c (List.mem_of_mem_head? first))

theorem Spaced.delimited {text token rest : List Char} {c : Char} {tokens : List Token}
    (spaced : Spaced text ((c :: token) :: tokens) rest) (ends : extendsNumber c = false) :
    Delimited text := by
  cases spaced with
  | @token gap _ _ _ _ blank _ _ =>
      intro first isFirst
      cases gap with
      | nil =>
          obtain rfl : c = first := by simpa using isFirst
          exact ends
      | cons space gap =>
          obtain rfl : space = first := by simpa using isFirst
          exact not_extendsNumber_of_isSpace (blank space (by simp))

theorem ne_of_isDigit {c other : Char} (digit : isDigit c = true) (notDigit : isDigit other = false) :
    c ≠ other := by
  rintro rfl
  exact absurd digit (by simp [notDigit])

theorem not_isSpace_of_isDigit {c : Char} (digit : isDigit c = true) : isSpace c = false := by
  have blank : c ≠ ' ' := ne_of_isDigit digit (by decide)
  have tab : c ≠ '\t' := ne_of_isDigit digit (by decide)
  have newline : c ≠ '\n' := ne_of_isDigit digit (by decide)
  have carriage : c ≠ '\r' := ne_of_isDigit digit (by decide)
  simp [isSpace, blank, tab, newline, carriage]

theorem ne_start_of_isDigit {c : Char} (digit : isDigit c = true) :
    c ≠ 'n' ∧ c ≠ 't' ∧ c ≠ 'f' ∧ c ≠ '-' ∧ c ≠ '"' ∧ c ≠ '[' ∧ c ≠ '{' := by
  refine ⟨?_, ?_, ?_, ?_, ?_, ?_, ?_⟩ <;> exact ne_of_isDigit digit (by decide)

theorem Digits.exists_cons (digits : Digits) : ∃ c more, digits.chars = c :: more ∧ isDigit c = true := by
  obtain ⟨chars, some, all⟩ := digits
  cases chars with
  | nil => exact absurd rfl some
  | cons c more => exact ⟨c, more, rfl, all c (by simp)⟩

theorem Numeral.exists_start (numeral : Numeral) :
    ∃ c token, numeral.token = c :: token ∧ (c = '-' ∨ isDigit c = true) := by
  rw [token]
  split
  · exact ⟨_, _, rfl, .inl rfl⟩
  · obtain ⟨c, more, chars, digit⟩ := numeral.whole.exists_cons
    exact ⟨c, more ++ numeral.tail, by simp [unsigned, chars], .inr digit⟩

theorem Tree.exists_start (tree : Tree) : ∃ c token tokens, tree.tokens = (c :: token) :: tokens ∧
    isSpace c = false ∧ c ≠ ']' := by
  cases tree with
  | null => exact ⟨_, _, _, rfl, by decide, by decide⟩
  | bool value => cases value <;> exact ⟨_, _, _, rfl, by decide, by decide⟩
  | string literal => exact ⟨_, _, _, rfl, by decide, by decide⟩
  | array elements => exact ⟨_, _, _, rfl, by decide, by decide⟩
  | object members => exact ⟨_, _, _, rfl, by decide, by decide⟩
  | number numeral =>
      obtain ⟨c, token, start, sign⟩ := numeral.exists_start
      refine ⟨c, token, [], by rw [tokens, start], ?_⟩
      rcases sign with rfl | digit
      · exact ⟨by decide, by decide⟩
      · exact ⟨not_isSpace_of_isDigit digit, ne_of_isDigit digit (by decide)⟩

theorem mem_separated {items : List (List Token)} {token : Token} (isToken : token ∈ separated items) :
    token = [','] ∨ ∃ item ∈ items, token ∈ item := by
  cases items with
  | nil => cases isToken
  | cons item items =>
      simp only [separated, List.mem_append, List.mem_flatMap, List.mem_cons] at isToken
      rcases isToken with here | ⟨later, isLater, comma | there⟩
      · exact .inr ⟨item, by simp, here⟩
      · exact .inl comma
      · exact .inr ⟨later, by simp [isLater], there⟩

def fixedTokens : List Token :=
  [['n', 'u', 'l', 'l'], ['t', 'r', 'u', 'e'], ['f', 'a', 'l', 's', 'e'],
    ['['], [']'], ['{'], ['}'], [','], [':']]

structure EachToken (holds : Token → Prop) : Prop where
  fixed : ∀ token ∈ fixedTokens, holds token
  number : ∀ numeral : Numeral, holds numeral.token
  string : ∀ literal : Literal, holds literal.token

section Tokens

variable {holds : Token → Prop}

theorem EachToken.separated (each : EachToken holds) {items : List (List Token)} {first last : Token}
    (isFirst : first ∈ fixedTokens) (isLast : last ∈ fixedTokens)
    (inside : ∀ item ∈ items, ∀ token ∈ item, holds token) :
    ∀ token ∈ first :: (separated items ++ [last]), holds token := by
  intro token isToken
  simp only [List.mem_cons, List.mem_append, List.not_mem_nil, or_false] at isToken
  rcases isToken with rfl | listed | rfl
  · exact each.fixed token isFirst
  · rcases mem_separated listed with rfl | ⟨item, isItem, here⟩
    · exact each.fixed _ (by simp [fixedTokens])
    · exact inside item isItem token here
  · exact each.fixed token isLast

mutual

theorem Tree.forall_tokens (each : EachToken holds) : (tree : Tree) → ∀ token ∈ tree.tokens, holds token
  | .null => by simpa [Tree.tokens] using each.fixed _ (by simp [fixedTokens])
  | .bool true => by simpa [Tree.tokens] using each.fixed _ (by simp [fixedTokens])
  | .bool false => by simpa [Tree.tokens] using each.fixed _ (by simp [fixedTokens])
  | .number numeral => by simpa [Tree.tokens] using each.number numeral
  | .string literal => by simpa [Tree.tokens] using each.string literal
  | .array elements => by
      rw [Tree.tokens]
      exact each.separated (by simp [fixedTokens]) (by simp [fixedTokens])
        (forall_elementTokens each elements)
  | .object members => by
      rw [Tree.tokens]
      exact each.separated (by simp [fixedTokens]) (by simp [fixedTokens])
        (forall_memberTokens each members)

theorem forall_elementTokens (each : EachToken holds) :
    (elements : List Tree) → ∀ item ∈ elementTokens elements, ∀ token ∈ item, holds token
  | [] => by simp [elementTokens]
  | tree :: elements => by
      rw [elementTokens]
      exact List.forall_mem_cons.mpr ⟨tree.forall_tokens each, forall_elementTokens each elements⟩

theorem forall_memberTokens (each : EachToken holds) :
    (members : List (Literal × Tree)) → ∀ item ∈ memberTokens members, ∀ token ∈ item, holds token
  | [] => by simp [memberTokens]
  | (key, tree) :: members => by
      rw [memberTokens]
      refine List.forall_mem_cons.mpr ⟨?_, forall_memberTokens each members⟩
      simp only [List.forall_mem_cons]
      exact ⟨each.string key, each.fixed _ (by simp [fixedTokens]), tree.forall_tokens each⟩

end

end Tokens

theorem eachToken_ne_nil : EachToken (· ≠ []) where
  fixed := by simp [fixedTokens]
  number := by
    intro numeral
    obtain ⟨c, token, start, _⟩ := numeral.exists_start
    simp [start]
  string := by simp [Literal.token]

theorem Tree.tokens_ne_nil (tree : Tree) : ∀ token ∈ tree.tokens, token ≠ [] :=
  tree.forall_tokens eachToken_ne_nil

theorem Spaced.flatten {tokens : List Token} (solid : ∀ token ∈ tokens, token ≠ []) (rest : List Char) :
    Spaced (tokens.flatten ++ rest) tokens rest := by
  induction tokens with
  | nil => exact .done rest
  | cons token tokens ih =>
      have behind := ih fun later member => solid later (by simp [member])
      rw [List.flatten_cons, List.append_assoc, ← List.nil_append (token ++ _)]
      exact .token (by simp) (solid token (by simp)) behind

theorem Tree.spells (tree : Tree) : Spells tree.tokens.flatten tree := by
  have spaced := Spaced.flatten tree.tokens_ne_nil []
  rw [List.append_nil] at spaced
  exact ⟨[], spaced, by simp⟩

theorem spaced_skipSpaces_iff {text rest : List Char} (tree : Tree) :
    Spaced (skipSpaces text) tree.tokens rest ↔ Spaced text tree.tokens rest := by
  obtain ⟨c, token, tokens, start, solid, _⟩ := tree.exists_start
  rw [start, spaced_cons_iff solid, spaced_cons_iff solid, skipSpaces_skipSpaces]

/-- Whatever follows, the tree ends where it does: only a number could go on. -/
def Tree.Ends (rest : List Char) : Tree → Prop
  | .number _ => Delimited rest
  | _ => True

theorem Delimited.ends {rest : List Char} (delimited : Delimited rest) (tree : Tree) :
    tree.Ends rest := by
  cases tree with
  | number numeral => exact delimited
  | _ => trivial

section Scalars

variable {text rest : List Char}

@[simp] theorem spaced_null_iff :
    Spaced text Tree.null.tokens rest ↔ skipSpaces text = 'n' :: 'u' :: 'l' :: 'l' :: rest := by
  rw [Tree.tokens, spaced_cons_iff (by decide)]
  simp

@[simp] theorem spaced_true_iff :
    Spaced text (Tree.bool true).tokens rest ↔ skipSpaces text = 't' :: 'r' :: 'u' :: 'e' :: rest := by
  rw [Tree.tokens, spaced_cons_iff (by decide)]
  simp

@[simp] theorem spaced_false_iff :
    Spaced text (Tree.bool false).tokens rest ↔
      skipSpaces text = 'f' :: 'a' :: 'l' :: 's' :: 'e' :: rest := by
  rw [Tree.tokens, spaced_cons_iff (by decide)]
  simp

@[simp] theorem spaced_string_iff {literal : Literal} :
    Spaced text (Tree.string literal).tokens rest ↔
      skipSpaces text = '"' :: (literal.chars ++ '"' :: rest) := by
  rw [Tree.tokens, Literal.token, spaced_cons_iff (by decide)]
  simp

@[simp] theorem spaced_number_iff {numeral : Numeral} :
    Spaced text (Tree.number numeral).tokens rest ↔ skipSpaces text = numeral.token ++ rest := by
  obtain ⟨c, token, start, sign⟩ := numeral.exists_start
  have solid : isSpace c = false := by
    rcases sign with rfl | digit
    · decide
    · exact not_isSpace_of_isDigit digit
  rw [Tree.tokens, start, spaced_cons_iff solid]
  simp

end Scalars

end Redline.Json
