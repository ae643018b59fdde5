import Redline.Json.Typed
import Redline.Proofs.Json.Values

/-! Values of known types against their trees. A reader of such values has a meaning of trees: it
answers what the tree in front of it means, and where it answers there is a tree. -/

namespace Redline.Json

def Tree.StartsWith (c : Char) : Tree → Prop
  | .null => c = 'n'
  | .bool _ => c = 't' ∨ c = 'f'
  | .number _ => c = '-' ∨ isDigit c = true
  | .string _ => c = '"'
  | .array _ => c = '['
  | .object _ => c = '{'

section Starts

variable {tree : Tree} {text behind rest : List Char} {c : Char}

theorem startsWith_of_spaced (spaced : Spaced text tree.tokens rest)
    (found : skipSpaces text = c :: behind) :
    tree.StartsWith c := by
  cases tree with
  | null =>
      rw [spaced_null_iff, found] at spaced
      exact (List.cons.inj spaced).1
  | bool value =>
      cases value
      · rw [spaced_false_iff, found] at spaced
        exact .inr (List.cons.inj spaced).1
      · rw [spaced_true_iff, found] at spaced
        exact .inl (List.cons.inj spaced).1
  | string literal =>
      rw [spaced_string_iff, found] at spaced
      exact (List.cons.inj spaced).1
  | number numeral =>
      obtain ⟨first, token, start, sign⟩ := numeral.exists_start
      rw [spaced_number_iff, found, start, List.cons_append] at spaced
      exact (List.cons.inj spaced).1 ▸ sign
  | array elements =>
      obtain ⟨_, same, _⟩ := (spaced_array_iff .full).mp spaced
      exact (List.cons.inj (found.symm.trans same)).1
  | object members =>
      obtain ⟨_, same, _⟩ := (spaced_object_iff .full).mp spaced
      exact (List.cons.inj (found.symm.trans same)).1

theorem eq_null (spaced : Spaced text tree.tokens rest) (found : skipSpaces text = 'n' :: behind) :
    tree = .null ∧ behind = 'u' :: 'l' :: 'l' :: rest := by
  have starts := startsWith_of_spaced spaced found
  cases tree with
  | null => simpa [found] using spaced
  | _ => simp [Tree.StartsWith, isDigit] at starts

theorem eq_string (spaced : Spaced text tree.tokens rest) (found : skipSpaces text = '"' :: behind) :
    ∃ literal, tree = .string literal ∧ behind = literal.chars ++ '"' :: rest := by
  have starts := startsWith_of_spaced spaced found
  cases tree with
  | string literal => simpa [found] using spaced
  | _ => simp [Tree.StartsWith, isDigit] at starts

theorem eq_array (care : Care) (spaced : Spaced text tree.tokens rest)
    (found : skipSpaces text = '[' :: behind) :
    ∃ elements, tree = .array elements ∧ Spaced behind ((elementListing care).all elements) rest := by
  have starts := startsWith_of_spaced spaced found
  cases tree with
  | array elements => simpa [found, spaced_array_iff care] using spaced
  | _ => simp [Tree.StartsWith, isDigit] at starts

theorem eq_object (care : Care) (spaced : Spaced text tree.tokens rest)
    (found : skipSpaces text = '{' :: behind) :
    ∃ members, tree = .object members ∧ Spaced behind ((memberListing care).all members) rest := by
  have starts := startsWith_of_spaced spaced found
  cases tree with
  | object members => simpa [found, spaced_object_iff care] using spaced
  | _ => simp [Tree.StartsWith, isDigit] at starts

theorem eq_number (spaced : Spaced text tree.tokens rest) (found : skipSpaces text = c :: behind)
    (sign : c = '-' ∨ isDigit c = true) :
    ∃ numeral, tree = .number numeral ∧ c :: behind = numeral.token ++ rest := by
  have starts := startsWith_of_spaced spaced found
  cases tree with
  | number numeral => simpa [found] using spaced
  | _ =>
      rcases sign with rfl | digit
      · simp [Tree.StartsWith] at starts
      · simp [Tree.StartsWith, ne_start_of_isDigit digit] at starts

end Starts

/-- A reader finds the trees of texts and gives what they mean. -/
structure Reads {α : Type} (limit : Nat) (read : Reader α) (meaning : Tree → Option α) : Prop where
  complete : ∀ {tree : Tree} {text rest : List Char}, Spaced text tree.tokens rest → tree.Ends rest →
    tree.tokens.length ≤ limit → (read text).toOption = (meaning tree).map (·, rest)
  sound : ∀ {text rest : List Char} {value : α}, read text = .ok (value, rest) →
    ∃ tree : Tree, Spaced text tree.tokens rest

section Readers

variable {α : Type} {limit : Nat} {expected : String} {text rest : List Char}

@[simp] theorem toOption_wrongType : (wrongType expected text : Except Fault α).toOption = none := by
  fun_cases wrongType expected text <;> simp

theorem wrongType_ne_ok (value : α) : wrongType expected text ≠ .ok value := by
  intro read
  have := toOption_eq_some_iff.mpr read
  simp at this

def Tree.text? : Tree → Option String
  | .string literal => literal.decode.map String.ofList
  | _ => none

theorem reads_text : Reads limit readText Tree.text? where
  complete := by
    intro tree text rest spaced _ _
    fun_cases readText text with
    | case1 behind found =>
        obtain ⟨literal, rfl, rfl⟩ := eq_string spaced found
        rw [toOption_bind, readString_chars, Tree.text?]
        cases literal.decode <;> rfl
    | case2 other =>
        rw [toOption_wrongType]
        cases tree with
        | string literal => exact absurd (spaced_string_iff.mp spaced) (other _)
        | _ => rfl
  sound := by
    intro text rest value
    fun_cases readText text with
    | case1 behind found =>
        intro read
        obtain ⟨_, string, same⟩ := bind_eq_ok_iff.mp read
        cases same
        exact tree_of_literal found (literal_of_readString string)
    | case2 other => exact fun read => absurd read (wrongType_ne_ok _)

def Number.within? (range : IntegerRange) : Number → Option Int
  | .integer value => if range.least ≤ value ∧ value < range.beyond then some value else none
  | .float _ => none

def Tree.integer? (range : IntegerRange) : Tree → Option Int
  | .number numeral => numeral.value?.bind (Number.within? range)
  | _ => none

theorem toOption_inRange (range : IntegerRange) (number : Number) (rest : List Char) :
    (inRange range (number, rest)).toOption = (number.within? range).map (·, rest) := by
  cases number with
  | float value => rfl
  | integer value =>
      rw [inRange, Number.within?]
      split <;> rfl

theorem rest_of_inRange {range : IntegerRange} {number : Number} {value : Int} {behind : List Char}
    (read : inRange range (number, behind) = .ok (value, rest)) : behind = rest := by
  have whole := toOption_eq_some_iff.mpr read
  rw [toOption_inRange, Option.map_eq_some_iff] at whole
  obtain ⟨_, _, same⟩ := whole
  exact (Prod.mk.inj same).2

theorem toOption_readInteger_number {range : IntegerRange} {numeral : Numeral}
    (spaced : Spaced text (Tree.number numeral).tokens rest) (delimited : Delimited rest) :
    (readInteger range text).toOption = ((Tree.number numeral).integer? range).map (·, rest) := by
  have read := toOption_readNumber numeral delimited
  have checked : ((numeral.value?.map (·, rest)).bind fun number => (inRange range number).toOption) =
      ((Tree.number numeral).integer? range).map (·, rest) := by
    rw [Tree.integer?]
    cases numeral.value? with
    | none => rfl
    | some number => exact toOption_inRange range number rest
  rw [readInteger]
  rcases number_cases spaced with ⟨negative, found⟩ | ⟨positive, c, more, digit, unsigned, found⟩
  · rw [negative] at read
    simp only [found, toOption_bind, read, checked]
  · rw [positive, unsigned] at read
    simp [found, digit, ne_start_of_isDigit digit, read, checked]

theorem reads_integer (range : IntegerRange) : Reads limit (readInteger range) (Tree.integer? range) where
  complete := by
    intro tree text rest spaced ends _
    cases tree with
    | number numeral => exact toOption_readInteger_number spaced ends
    | _ =>
        fun_cases readInteger range text with
        | case1 behind found =>
            obtain ⟨_, same, _⟩ := eq_number spaced found (.inl rfl)
            cases same
        | case2 c behind sign found digit =>
            obtain ⟨_, same, _⟩ := eq_number spaced found (.inr digit)
            cases same
        | case3 => simp [Tree.integer?]
        | case4 => simp [Tree.integer?]
  sound := by
    intro text rest value
    fun_cases readInteger range text with
    | case1 behind found =>
        intro read
        obtain ⟨⟨number, _⟩, numeral, checked⟩ := bind_eq_ok_iff.mp read
        obtain rfl := rest_of_inRange checked
        exact tree_of_skipNumber found (skipNumber_of_readNumber numeral)
    | case2 c behind sign found digit =>
        intro read
        obtain ⟨⟨number, _⟩, numeral, checked⟩ := bind_eq_ok_iff.mp read
        obtain rfl := rest_of_inRange checked
        exact tree_of_skipNumber_digits (found ▸ skipNumber_of_readNumber numeral)
    | case3 => exact fun read => absurd read (wrongType_ne_ok _)
    | case4 => exact fun read => absurd read (wrongType_ne_ok _)

theorem Reads.map {β : Type} {read : Reader α} {meaning : Tree → Option α}
    (reads : Reads limit read meaning) (change : α → β) : Reads limit (fun text => do
      let (value, rest) ← read text
      return (change value, rest)) (fun tree => (meaning tree).map change) where
  complete := by
    intro tree text rest spaced ends few
    rw [toOption_bind, reads.complete spaced ends few]
    cases meaning tree <;> rfl
  sound := by
    intro text rest value changed
    obtain ⟨_, read, same⟩ := bind_eq_ok_iff.mp changed
    cases same
    exact reads.sound read

def Tree.count? (tree : Tree) : Option Nat :=
  (tree.integer? .unsigned32).map Int.toNat

theorem reads_count : Reads limit readCount Tree.count? :=
  (reads_integer .unsigned32).map Int.toNat

def Tree.option? (meaning : Tree → Option α) : Tree → Option (Option α)
  | .null => some none
  | tree => (meaning tree).map some

theorem reads_option {read : Reader α} {meaning : Tree → Option α} (reads : Reads limit read meaning) :
    Reads limit (readOption read) (Tree.option? meaning) where
  complete := by
    intro tree text rest spaced ends few
    fun_cases readOption read text with
    | case1 behind found =>
        obtain ⟨rfl, rfl⟩ := eq_null spaced found
        rfl
    | case2 other =>
        rw [toOption_bind, reads.complete ((spaced_skipSpaces_iff tree).mpr spaced) ends few]
        cases tree with
        | null => exact absurd (spaced_null_iff.mp spaced) (other _)
        | _ =>
            rw [Tree.option?]
            · cases meaning _ <;> rfl
            · nofun
  sound := by
    intro text rest value
    fun_cases readOption read text with
    | case1 behind found =>
        intro read
        obtain ⟨_, word, same⟩ := bind_eq_ok_iff.mp read
        cases same
        exact ⟨.null, tree_of_word (by decide) rfl found word⟩
    | case2 other =>
        intro found
        obtain ⟨_, read, same⟩ := bind_eq_ok_iff.mp found
        cases same
        obtain ⟨tree, spaced⟩ := reads.sound read
        exact ⟨tree, (spaced_skipSpaces_iff tree).mp spaced⟩

def Tree.orDefault? [Inhabited α] (meaning : Tree → Option α) (tree : Tree) : Option α :=
  (tree.option? meaning).map (·.getD default)

theorem orDefault?_of_ne_null [Inhabited α] {meaning : Tree → Option α} {tree : Tree}
    (notNull : tree ≠ .null) :
    tree.orDefault? meaning = meaning tree := by
  rw [Tree.orDefault?, Tree.option?]
  · cases meaning tree <;> rfl
  · exact notNull

theorem reads_orDefault [Inhabited α] {read : Reader α} {meaning : Tree → Option α}
    (reads : Reads limit read meaning) : Reads limit (readOrDefault read) (Tree.orDefault? meaning) :=
  (reads_option reads).map fun value => value.getD default

def Tree.list? (meaning : Tree → Option α) : Tree → Option (List α)
  | .array elements => elements.mapM meaning
  | _ => none

theorem reads_list {read : Reader α} {meaning : Tree → Option α} (reads : Reads limit read meaning) :
    Reads limit (readList limit read) (Tree.list? meaning) where
  complete := by
    intro tree text rest spaced _ few
    fun_cases readList limit read text with
    | case1 behind found element =>
        obtain ⟨elements, rfl, listed⟩ := eq_array .full spaced found
        have each : ∀ tree ∈ elements, ∀ text mid, Spaced text tree.tokens mid → Delimited mid →
            (read text).toOption = (meaning tree).map (·, mid) := by
          intro tree member text mid here delimited
          have smaller := length_lt_array member
          exact reads.complete here (delimited.ends tree) (by omega)
        rw [toOption_bind, toOption_collect each listed few, Tree.list?]
        cases elements.mapM meaning <;> simp
    | case2 other =>
        rw [toOption_wrongType]
        cases tree with
        | array elements =>
            obtain ⟨behind, found, _⟩ := (spaced_array_iff .full).mp spaced
            exact absurd found (other behind)
        | _ => rfl
  sound := by
    intro text rest value
    fun_cases readList limit read text with
    | case1 behind found element =>
        intro read
        obtain ⟨_, listed, same⟩ := bind_eq_ok_iff.mp read
        cases same
        refine exists_array found (fun _ text _ mid here => ?_) listed
        obtain ⟨_, read, same⟩ := bind_eq_ok_iff.mp here
        cases same
        exact reads.sound read
    | case2 other => exact fun read => absurd read (wrongType_ne_ok _)

theorem reads_value (room : Nat) : Reads limit (readValue limit room) (Tree.value? room) :=
  ⟨toOption_readValue, tree_of_readValue⟩

end Readers

end Redline.Json
