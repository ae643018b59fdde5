import Redline.Json.Value
import Redline.Proofs.Json.Containers
import Redline.Proofs.Json.Numbers

/-! Values of any shape against their trees. Every value is passed over to its end, however deep it
is. It is read as its meaning, if its strings and numbers have one and it is not too deep. -/

namespace Redline.Json

theorem readWord_eq_ok_iff {word text rest : List Char} :
    readWord word text = .ok rest ↔ text = word ++ rest := by
  induction word generalizing text with
  | nil => simp [readWord]
  | cons expected word ih =>
      cases text with
      | nil => simp [readWord]
      | cons c text =>
          rw [readWord]
          split
          next same => simp [same, ih]
          next other => simp [other]

theorem number_cases {numeral : Numeral} {text rest : List Char}
    (spaced : Spaced text (Tree.number numeral).tokens rest) :
    (numeral.negative = true ∧ skipSpaces text = '-' :: (numeral.unsigned ++ rest)) ∨
      (numeral.negative = false ∧ ∃ c more, isDigit c = true ∧ numeral.unsigned ++ rest = c :: more ∧
        skipSpaces text = c :: more) := by
  rw [spaced_number_iff, Numeral.token] at spaced
  split at spaced
  next negative => exact .inl ⟨negative, spaced⟩
  next positive =>
    obtain ⟨c, more, chars, digit⟩ := numeral.whole.exists_cons
    have unsigned : numeral.unsigned ++ rest = c :: (more ++ numeral.tail ++ rest) := by
      simp [Numeral.unsigned, chars]
    exact .inr ⟨by simpa using positive, c, _, digit, unsigned, spaced.trans unsigned⟩

theorem skipValue_number {limit room : Nat} {numeral : Numeral} {text rest : List Char}
    (spaced : Spaced text (Tree.number numeral).tokens rest) (delimited : Delimited rest) :
    skipValue limit room text = .ok rest := by
  have skipped := skipNumber_unsigned numeral delimited
  rw [skipValue]
  rcases number_cases spaced with ⟨_, found⟩ | ⟨_, c, more, digit, unsigned, found⟩
  · rw [found]
    exact skipped
  · rw [unsigned] at skipped
    simp [found, skipped, digit, ne_start_of_isDigit digit]

theorem foldlM_unit {ι : Type} (items : List ι) : items.foldlM (fun _ _ => some ()) () = some () := by
  induction items with
  | nil => rfl
  | cons item items ih => exact ih

theorem skipValue_of_spaced {limit room : Nat} {tree : Tree} {text rest : List Char}
    (spaced : Spaced text tree.tokens rest) (ends : tree.Ends rest) (shallow : tree.tokens.length ≤ room)
    (few : tree.tokens.length ≤ limit) : skipValue limit room text = .ok rest := by
  induction room generalizing tree text rest with
  | zero =>
      obtain ⟨c, token, tokens, start, _⟩ := tree.exists_start
      simp [start] at shallow
  | succ room ih =>
      cases tree with
      | null =>
          rw [spaced_null_iff] at spaced
          simp [skipValue, spaced, readWord]
      | bool value =>
          cases value
          · rw [spaced_false_iff] at spaced
            simp [skipValue, spaced, readWord]
          · rw [spaced_true_iff] at spaced
            simp [skipValue, spaced, readWord]
      | string literal =>
          rw [spaced_string_iff] at spaced
          simp [skipValue, spaced, skipString_chars]
      | number numeral => exact skipValue_number spaced ends
      | array elements =>
          obtain ⟨behind, found, listed⟩ := (spaced_array_iff .slight).mp spaced
          rw [skipValue]
          simp only [found, bind_eq_ok_iff]
          refine ⟨((), rest), toOption_eq_some_iff.mp ?_, rfl⟩
          refine Eq.trans (toOption_readElements ?_ listed few) (congrArg _ (foldlM_unit elements))
          intro tree member state text mid here delimited
          have smaller := length_lt_array member
          rw [ih here (delimited.ends tree) (by omega) (by omega)]
          rfl
      | object members =>
          obtain ⟨behind, found, listed⟩ := (spaced_object_iff .slight).mp spaced
          rw [skipValue]
          simp only [found, bind_eq_ok_iff]
          refine ⟨((), rest), toOption_eq_some_iff.mp ?_, rfl⟩
          refine Eq.trans (toOption_readMembers ?_ listed few) (congrArg _ (foldlM_unit members))
          intro member isMember state text mid here delimited
          have smaller := length_lt_object isMember
          obtain ⟨value, colon, here⟩ := spaced_colon_iff.mp here
          rw [skipString_chars, ok_bind, colon, ok_bind, ih here (delimited.ends _) (by omega) (by omega)]
          rfl

def inserted (meaning : Tree → Option Value) (read : List (List Char × Value)) (member : Literal × Tree) :
    Option (List (List Char × Value)) := do
  let key ← member.1.decode
  let value ← meaning member.2
  return insertMember key value read

/-- What a tree means as a value in which so many brackets may be open at a time. -/
def Tree.value? : Nat → Tree → Option Value
  | _, .null => some .null
  | _, .bool value => some (.bool value)
  | _, .number numeral => numeral.value?.map .number
  | _, .string literal => literal.decode.map .string
  | 0, .array _ => none
  | 0, .object _ => none
  | room + 1, .array elements => (elements.mapM (value? room)).map .array
  | room + 1, .object members => (members.foldlM (inserted (value? room)) []).map .object

theorem foldlM_cons_reverse {ι α : Type} (meaning : ι → Option α) (read : List α) (items : List ι) :
    items.foldlM (fun read item => (meaning item).map (· :: read)) read =
      (items.mapM meaning).map fun values => values.reverse ++ read := by
  induction items generalizing read with
  | nil => rfl
  | cons item items ih =>
      rw [List.foldlM_cons, List.mapM_cons]
      cases meaning item with
      | none => rfl
      | some value =>
          simp only [Option.map_some, Option.bind_eq_bind, Option.bind_some, ih]
          cases items.mapM meaning <;> simp

theorem toOption_collect {α : Type} {read : Reader α} {meaning : Tree → Option α} {elements : List Tree}
    {text rest : List Char} {limit : Nat}
    (reads : ∀ tree ∈ elements, ∀ text mid, Spaced text tree.tokens mid → Delimited mid →
      (read text).toOption = (meaning tree).map (·, mid))
    (listed : Spaced text ((elementListing .full).all elements) rest)
    (few : (Tree.array elements).tokens.length ≤ limit) :
    (readElements .full limit (fun before text => do
      let (value, rest) ← read text
      return (value :: before, rest)) [] text).toOption =
        (elements.mapM meaning).map fun values => (values.reverse, rest) := by
  have each : ∀ tree ∈ elements, ∀ (before : List α) text mid,
      Spaced text tree.tokens mid → Delimited mid →
      (do
        let (value, rest) ← read text
        return (value :: before, rest) : Except Fault (List α × List Char)).toOption =
          ((meaning tree).map (· :: before)).map (·, mid) := by
    intro tree member before text mid here delimited
    rw [toOption_bind, reads tree member text mid here delimited]
    cases meaning tree <;> rfl
  rw [toOption_readElements each listed few, foldlM_cons_reverse]
  cases elements.mapM meaning <;> simp

theorem toOption_readMember {limit room : Nat} {member : Literal × Tree} {text rest : List Char}
    (reads : ∀ text, Spaced text member.2.tokens rest →
      (readValue limit room text).toOption = (member.2.value? room).map (·, rest))
    (spaced : Spaced text ([':'] :: member.2.tokens) rest) (before : List (List Char × Value)) :
    (do
      let (key, rest) ← readString (member.1.chars ++ '"' :: text)
      let rest ← readColon rest
      let (value, rest) ← readValue limit room rest
      return (insertMember key value before, rest) :
        Except Fault (List (List Char × Value) × List Char)).toOption =
      (inserted (Tree.value? room) before member).map (·, rest) := by
  obtain ⟨value, colon, here⟩ := spaced_colon_iff.mp spaced
  rw [toOption_bind, readString_chars, inserted]
  cases member.1.decode with
  | none => rfl
  | some key =>
      rw [Option.map_some, Option.bind_some]
      dsimp only
      rw [colon, ok_bind, toOption_bind, reads value here]
      cases member.2.value? room <;> rfl

theorem toOption_readValue_number {limit room : Nat} {numeral : Numeral} {text rest : List Char}
    (spaced : Spaced text (Tree.number numeral).tokens rest) (delimited : Delimited rest) :
    (readValue limit room text).toOption = ((Tree.number numeral).value? room).map (·, rest) := by
  have read := toOption_readNumber numeral delimited
  rw [readValue, Tree.value?]
  rcases number_cases spaced with ⟨negative, found⟩ | ⟨positive, c, more, digit, unsigned, found⟩
  · rw [negative] at read
    simp only [found, toOption_bind, read]
    cases numeral.value? <;> rfl
  · rw [positive, unsigned] at read
    simp [found, read, digit, ne_start_of_isDigit digit]
    cases numeral.value? <;> rfl

theorem toOption_readValue {limit room : Nat} {tree : Tree} {text rest : List Char}
    (spaced : Spaced text tree.tokens rest) (ends : tree.Ends rest) (few : tree.tokens.length ≤ limit) :
    (readValue limit room text).toOption = (tree.value? room).map (·, rest) := by
  -- The scalars are read alike in any room, so the cases of the room come after those of the tree.
  induction room using Nat.strongRecOn generalizing tree text rest with
  | ind room ih =>
      cases tree with
      | null =>
          rw [spaced_null_iff] at spaced
          rw [readValue]
          simp [spaced, readWord, Tree.value?]
      | bool value =>
          cases value
          · rw [spaced_false_iff] at spaced
            rw [readValue]
            simp [spaced, readWord, Tree.value?]
          · rw [spaced_true_iff] at spaced
            rw [readValue]
            simp [spaced, readWord, Tree.value?]
      | string literal =>
          rw [spaced_string_iff] at spaced
          rw [readValue]
          simp only [spaced, toOption_bind, readString_chars, Tree.value?]
          cases literal.decode <;> rfl
      | number numeral => exact toOption_readValue_number spaced ends
      | array elements =>
          obtain ⟨behind, found, listed⟩ := (spaced_array_iff .full).mp spaced
          rw [readValue]
          cases room with
          | zero => simp [found, Tree.value?]
          | succ room =>
              have each : ∀ tree ∈ elements, ∀ text mid, Spaced text tree.tokens mid → Delimited mid →
                  (readValue limit room text).toOption = (tree.value? room).map (·, mid) := by
                intro tree member text mid here delimited
                have smaller := length_lt_array member
                exact ih room (Nat.lt_succ_self room) here (delimited.ends tree) (by omega)
              simp only [found, toOption_bind]
              rw [toOption_collect each listed few, Tree.value?]
              cases elements.mapM (Tree.value? room) <;> simp
      | object members =>
          obtain ⟨behind, found, listed⟩ := (spaced_object_iff .full).mp spaced
          rw [readValue]
          cases room with
          | zero => simp [found, Tree.value?]
          | succ room =>
              have each (member : Literal × Tree) (isMember : member ∈ members)
                  (before : List (List Char × Value)) (text mid : List Char)
                  (here : Spaced text ([':'] :: member.2.tokens) mid) (delimited : Delimited mid) :=
                toOption_readMember (fun text value => ih room (Nat.lt_succ_self room) value
                  (delimited.ends _) (Nat.le_trans (Nat.le_of_lt (length_lt_object isMember)) few))
                  here before
              simp only [found, toOption_bind]
              rw [toOption_readMembers each listed few, Tree.value?]
              cases members.foldlM (inserted (Tree.value? room)) [] <;> rfl

theorem tree_of_word {text behind rest : List Char} {c : Char} {word : List Char} {tree : Tree}
    (solid : isSpace c = false) (tokens : tree.tokens = [c :: word])
    (found : skipSpaces text = c :: behind) (read : readWord word behind = .ok rest) :
    Spaced text tree.tokens rest := by
  rw [tokens, spaced_cons_iff solid]
  exact ⟨rest, by rw [found, readWord_eq_ok_iff.mp read], .done rest⟩

theorem tree_of_skipNumber {text behind rest : List Char} (found : skipSpaces text = '-' :: behind)
    (skipped : skipNumber behind = .ok rest) : ∃ tree : Tree, Spaced text tree.tokens rest := by
  obtain ⟨numeral, negative, rfl⟩ := numeral_of_skipNumber true skipped
  refine ⟨.number numeral, spaced_number_iff.mpr ?_⟩
  simp [found, Numeral.token, negative]

theorem tree_of_skipNumber_digits {text rest : List Char}
    (skipped : skipNumber (skipSpaces text) = .ok rest) :
    ∃ tree : Tree, Spaced text tree.tokens rest := by
  obtain ⟨numeral, positive, same⟩ := numeral_of_skipNumber false skipped
  refine ⟨.number numeral, spaced_number_iff.mpr ?_⟩
  simp [same, Numeral.token, positive]

theorem tree_of_literal {text behind rest : List Char} (found : skipSpaces text = '"' :: behind)
    (literal : ∃ literal : Literal, behind = literal.chars ++ '"' :: rest) :
    ∃ tree : Tree, Spaced text tree.tokens rest := by
  obtain ⟨literal, rfl⟩ := literal
  exact ⟨.string literal, spaced_string_iff.mpr found⟩

theorem tree_of_skipValue {limit room : Nat} {text rest : List Char}
    (skipped : skipValue limit room text = .ok rest) : ∃ tree : Tree, Spaced text tree.tokens rest := by
  induction room using Nat.strongRecOn generalizing text rest with
  | ind room ih =>
      rw [skipValue] at skipped
      split at skipped
      next => simp at skipped
      next behind found => exact ⟨.null, tree_of_word (by decide) rfl found skipped⟩
      next behind found => exact ⟨.bool true, tree_of_word (by decide) rfl found skipped⟩
      next behind found => exact ⟨.bool false, tree_of_word (by decide) rfl found skipped⟩
      next behind found => exact tree_of_skipNumber found skipped
      next behind found => exact tree_of_literal found (literal_of_skipString skipped)
      next behind found =>
        cases room with
        | zero => simp at skipped
        | succ room =>
            obtain ⟨⟨⟨⟩, mid⟩, read, same⟩ := bind_eq_ok_iff.mp skipped
            cases same
            refine exists_array found (fun _ text _ mid here => ?_) read
            obtain ⟨behind, skipped, same⟩ := bind_eq_ok_iff.mp here
            cases same
            exact ih room (Nat.lt_succ_self room) skipped
      next behind found =>
        cases room with
        | zero => simp at skipped
        | succ room =>
            obtain ⟨⟨⟨⟩, mid⟩, read, same⟩ := bind_eq_ok_iff.mp skipped
            cases same
            refine exists_object found (fun _ text _ mid here => ?_) read
            obtain ⟨behind, key, here⟩ := bind_eq_ok_iff.mp here
            obtain ⟨value, colon, here⟩ := bind_eq_ok_iff.mp here
            obtain ⟨_, skipped, same⟩ := bind_eq_ok_iff.mp here
            cases same
            obtain ⟨literal, quoted⟩ := literal_of_skipString key
            obtain ⟨tree, spaced⟩ := ih room (Nat.lt_succ_self room) skipped
            exact ⟨literal, tree, behind, quoted, spaced_colon_iff.mpr ⟨value, colon, spaced⟩⟩
      next c behind found =>
        split at skipped
        next => exact tree_of_skipNumber_digits (found ▸ skipped)
        next => simp at skipped

theorem tree_of_readValue {limit room : Nat} {text rest : List Char} {value : Value}
    (read : readValue limit room text = .ok (value, rest)) :
    ∃ tree : Tree, Spaced text tree.tokens rest := by
  induction room using Nat.strongRecOn generalizing text value rest with
  | ind room ih =>
      rw [readValue] at read
      split at read
      next => simp at read
      next behind found =>
        obtain ⟨_, word, same⟩ := bind_eq_ok_iff.mp read
        cases same
        exact ⟨.null, tree_of_word (by decide) rfl found word⟩
      next behind found =>
        obtain ⟨_, word, same⟩ := bind_eq_ok_iff.mp read
        cases same
        exact ⟨.bool true, tree_of_word (by decide) rfl found word⟩
      next behind found =>
        obtain ⟨_, word, same⟩ := bind_eq_ok_iff.mp read
        cases same
        exact ⟨.bool false, tree_of_word (by decide) rfl found word⟩
      next behind found =>
        obtain ⟨_, number, same⟩ := bind_eq_ok_iff.mp read
        cases same
        exact tree_of_skipNumber found (skipNumber_of_readNumber number)
      next behind found =>
        obtain ⟨_, string, same⟩ := bind_eq_ok_iff.mp read
        cases same
        exact tree_of_literal found (literal_of_readString string)
      next behind found =>
        cases room with
        | zero => simp at read
        | succ room =>
            obtain ⟨_, listed, same⟩ := bind_eq_ok_iff.mp read
            cases same
            refine exists_array found (fun _ text _ mid here => ?_) listed
            obtain ⟨_, element, same⟩ := bind_eq_ok_iff.mp here
            cases same
            exact ih room (Nat.lt_succ_self room) element
      next behind found =>
        cases room with
        | zero => simp at read
        | succ room =>
            obtain ⟨_, listed, same⟩ := bind_eq_ok_iff.mp read
            cases same
            refine exists_object found (fun _ text _ mid here => ?_) listed
            obtain ⟨_, key, here⟩ := bind_eq_ok_iff.mp here
            obtain ⟨_, colon, here⟩ := bind_eq_ok_iff.mp here
            obtain ⟨_, value, same⟩ := bind_eq_ok_iff.mp here
            cases same
            obtain ⟨literal, quoted⟩ := literal_of_readString key
            obtain ⟨tree, spaced⟩ := ih room (Nat.lt_succ_self room) value
            exact ⟨literal, tree, _, quoted, spaced_colon_iff.mpr ⟨_, colon, spaced⟩⟩
      next c behind found =>
        split at read
        next =>
          obtain ⟨_, number, same⟩ := bind_eq_ok_iff.mp read
          cases same
          exact tree_of_skipNumber_digits (found ▸ skipNumber_of_readNumber number)
        next => simp at read

end Redline.Json
