import Redline.Proofs.Json.Typed

/-! Records against their trees. Each field has a slot, which says what a tree in its place does to
the record. The members of an object are put into their slots one after another, each slot once;
the elements of a list are put into the slots by their order. -/

namespace Redline.Json

variable {σ α : Type}

structure Slot (σ : Type) where
  name : List Char
  put : Tree → Option (σ → σ)

def Slot.of (name : String) (meaning : Tree → Option α) (set : σ → α → σ) : Slot σ where
  name := name.toList
  put tree := (meaning tree).map fun value record => set record value

/-- Puts a member into its slot. The names of the slots that have been filled come with the record. -/
def placed (slots : List (Slot σ)) (state : List (List Char) × σ) (member : Literal × Tree) :
    Option (List (List Char) × σ) := do
  let name ← member.1.decode
  match slots.find? fun slot => slot.name = name with
  | none => return state
  | some slot =>
    if state.1.contains name then none
    else (slot.put member.2).map fun put => (name :: state.1, put state.2)

def ordered : List (Slot σ) → σ → List Tree → Option σ
  | [], record, [] => some record
  | [], _, _ :: _ => none
  | _ :: _, record, [] => some record
  | slot :: slots, record, tree :: elements => do
    let put ← slot.put tree
    ordered slots (put record) elements

def Tree.record? (slots : List (Slot σ)) (blank : σ) : Tree → Option σ
  | .object members => (members.foldlM (placed slots) ([], blank)).map (·.2)
  | .array elements => ordered slots blank elements
  | _ => none

structure Fits (limit : Nat) (field : Field σ) (slot : Slot σ) : Prop where
  name : field.name = slot.name
  reads : ∀ record, Reads limit (field.read record) fun tree => (slot.put tree).map fun put => put record

variable {limit : Nat} {fields : List (Field σ)} {slots : List (Slot σ)} {text rest : List Char}

theorem fits_of {read : Reader α} {meaning : Tree → Option α} (reads : Reads limit read meaning)
    (name : String) (set : σ → α → σ) : Fits limit (.of name read set) (.of name meaning set) where
  name := rfl
  reads record := by
    have changed := reads.map (set record)
    simp only [Slot.of, Option.map_map, Function.comp_def]
    exact changed

theorem find_fits (fits : List.Forall₂ (Fits limit) fields slots) (name : List Char) :
    ((fields.find? fun field => field.name = name) = none ∧
        (slots.find? fun slot => slot.name = name) = none) ∨
      ∃ field slot, (fields.find? fun field => field.name = name) = some field ∧
        (slots.find? fun slot => slot.name = name) = some slot ∧ Fits limit field slot := by
  induction fits with
  | nil => exact .inl ⟨rfl, rfl⟩
  | @cons field slot fields slots fit _ ih =>
      by_cases same : slot.name = name
      · exact .inr ⟨field, slot, by simp [fit.name, same], by simp [same], fit⟩
      · simpa [fit.name, same] using ih

theorem toOption_readField (fits : List.Forall₂ (Fits limit) fields slots) (state : List (List Char) × σ)
    {member : Literal × Tree} (spaced : Spaced text ([':'] :: member.2.tokens) rest)
    (ends : member.2.Ends rest) (few : member.2.tokens.length ≤ limit) :
    (readField limit fields state (member.1.chars ++ '"' :: text)).toOption =
      (placed slots state member).map (·, rest) := by
  obtain ⟨value, colon, here⟩ := spaced_colon_iff.mp spaced
  rw [readField, toOption_bind, readString_chars, placed]
  cases member.1.decode with
  | none => rfl
  | some name =>
      simp only [Option.map_some, Option.bind_some, Option.bind_eq_bind]
      rcases find_fits fits name with ⟨noField, noSlot⟩ | ⟨field, slot, isField, isSlot, fit⟩
      · rw [noField, noSlot]
        simp [colon, skipValue_of_spaced here ends few few]
      · rw [isField, isSlot]
        dsimp only
        split
        · rfl
        · simp only [colon, ok_bind, toOption_bind, (fit.reads state.2).complete here ends few]
          cases slot.put member.2 <;> rfl

theorem exists_member (fits : List.Forall₂ (Fits limit) fields slots) {state final : List (List Char) × σ}
    (read : readField limit fields state text = .ok (final, rest)) :
    ∃ (key : Literal) (tree : Tree) (behind : List Char),
      text = key.chars ++ '"' :: behind ∧ Spaced behind ([':'] :: tree.tokens) rest := by
  obtain ⟨⟨name, behind⟩, key, read⟩ := bind_eq_ok_iff.mp read
  obtain ⟨literal, quoted⟩ := literal_of_readString key
  dsimp only at quoted read
  rcases find_fits fits name with ⟨noField, _⟩ | ⟨field, slot, isField, _, fit⟩
  · rw [noField] at read
    obtain ⟨value, colon, read⟩ := bind_eq_ok_iff.mp read
    obtain ⟨_, skipped, same⟩ := bind_eq_ok_iff.mp read
    cases same
    obtain ⟨tree, spaced⟩ := tree_of_skipValue skipped
    exact ⟨literal, tree, behind, quoted, spaced_colon_iff.mpr ⟨value, colon, spaced⟩⟩
  · rw [isField] at read
    dsimp only at read
    split at read
    · simp at read
    · obtain ⟨value, colon, read⟩ := bind_eq_ok_iff.mp read
      obtain ⟨_, found, same⟩ := bind_eq_ok_iff.mp read
      cases same
      obtain ⟨tree, spaced⟩ := (fit.reads state.2).sound found
      exact ⟨literal, tree, behind, quoted, spaced_colon_iff.mpr ⟨value, colon, spaced⟩⟩

def Stands (place : List Char → Except Fault Next) (text rest : List Char) : List Tree → Prop
  | [] => place text = .ok (.done rest) ∧ endFields text = .ok rest
  | tree :: elements => (endFields text).toOption = none ∧ ∃ start mid, place text = .ok (.entry start) ∧
      Spaced start tree.tokens mid ∧ Spaced mid ((elementListing .full).later elements) rest

theorem endFields_eq_ok_iff : endFields text = .ok rest ↔ Spaced text [[']']] rest := by
  rw [spaced_cons_iff (by decide)]
  fun_cases endFields text <;> simp_all

theorem toOption_endFields {c : Char} {behind : List Char} (found : skipSpaces text = c :: behind)
    (notClose : c ≠ ']') : (endFields text).toOption = none := by
  have other := notClose.symm
  fun_cases endFields text <;> simp_all

theorem stands_first {elements : List Tree}
    (spaced : Spaced text ((elementListing .full).all elements) rest) :
    Stands firstElement text rest elements := by
  cases elements with
  | nil => exact ⟨(elementListing .full).first_done.mpr spaced, endFields_eq_ok_iff.mpr spaced⟩
  | cons tree elements =>
      rw [Listing.all_cons] at spaced
      obtain ⟨mid, here, behind⟩ := spaced.split
      obtain ⟨start, found, starts⟩ := (elementListing .full).first_entry.mpr here
      obtain ⟨c, more, first, notClose⟩ := skipSpaces_of_spaced here
      exact ⟨toOption_endFields first notClose, start, mid, found, starts, behind⟩

theorem stands_next {elements : List Tree}
    (spaced : Spaced text ((elementListing .full).later elements) rest) :
    Stands (nextElement .full) text rest elements := by
  cases elements with
  | nil => exact ⟨(elementListing .full).follow_done.mpr spaced, endFields_eq_ok_iff.mpr spaced⟩
  | cons tree elements =>
      rw [Listing.later_cons] at spaced
      obtain ⟨mid, here, behind⟩ := spaced.split
      obtain ⟨start, found, starts⟩ := (elementListing .full).follow_entry.mpr here
      obtain ⟨_, comma, _⟩ := (spaced_cons_iff (by decide)).mp here
      exact ⟨toOption_endFields comma (by decide), start, mid, found, starts, behind⟩

theorem toOption_readOrdered (fits : List.Forall₂ (Fits limit) fields slots) {elements : List Tree}
    {place : List Char → Except Fault Next} {record : σ} (stands : Stands place text rest elements)
    (few : ∀ tree ∈ elements, tree.tokens.length ≤ limit) :
    (readOrdered place fields record text).toOption = (ordered slots record elements).map (·, rest) := by
  induction fits generalizing place text record elements with
  | nil =>
      cases elements with
      | nil => simp [readOrdered, ordered, stands.2]
      | cons tree elements => simp [readOrdered, ordered, stands.1]
  | @cons field slot fields slots fit _ ih =>
      cases elements with
      | nil => simp [readOrdered, ordered, stands.1]
      | cons tree elements =>
          obtain ⟨_, start, mid, found, starts, behind⟩ := stands
          have delimited := (elementListing .full).delimited_of_later behind
          rw [readOrdered, found, ok_bind, ordered]
          dsimp only
          rw [toOption_bind, (fit.reads record).complete starts (delimited.ends tree)
            (few tree (by simp))]
          cases slot.put tree with
          | none => rfl
          | some put => exact ih (stands_next behind) fun tree member => few tree (by simp [member])

theorem exists_later (fits : List.Forall₂ (Fits limit) fields slots) {record final : σ}
    (read : readOrdered (nextElement .full) fields record text = .ok (final, rest)) :
    ∃ elements, Spaced text ((elementListing .full).later elements) rest := by
  induction fits generalizing text record with
  | nil =>
      obtain ⟨_, ended, same⟩ := bind_eq_ok_iff.mp read
      cases same
      exact ⟨[], endFields_eq_ok_iff.mp ended⟩
  | @cons field slot fields slots fit _ ih =>
      obtain ⟨next, found, read⟩ := bind_eq_ok_iff.mp read
      cases next with
      | done behind =>
          cases read
          exact ⟨[], (elementListing .full).follow_done.mp found⟩
      | entry start =>
          obtain ⟨⟨record, mid⟩, here, read⟩ := bind_eq_ok_iff.mp read
          obtain ⟨tree, starts⟩ := (fit.reads _).sound here
          obtain ⟨elements, behind⟩ := ih read
          refine ⟨tree :: elements, ?_⟩
          rw [Listing.later_cons]
          exact ((elementListing .full).follow_entry.mp ⟨start, found, starts⟩).append behind

theorem exists_all (fits : List.Forall₂ (Fits limit) fields slots) {record final : σ}
    (read : readOrdered firstElement fields record text = .ok (final, rest)) :
    ∃ elements, Spaced text ((elementListing .full).all elements) rest := by
  cases fits with
  | nil =>
      obtain ⟨_, ended, same⟩ := bind_eq_ok_iff.mp read
      cases same
      exact ⟨[], endFields_eq_ok_iff.mp ended⟩
  | @cons field slot fields slots fit fits =>
      obtain ⟨next, found, read⟩ := bind_eq_ok_iff.mp read
      cases next with
      | done behind =>
          cases read
          exact ⟨[], (elementListing .full).first_done.mp found⟩
      | entry start =>
          obtain ⟨⟨record, mid⟩, here, read⟩ := bind_eq_ok_iff.mp read
          obtain ⟨tree, starts⟩ := (fit.reads _).sound here
          obtain ⟨elements, behind⟩ := exists_later fits read
          refine ⟨tree :: elements, ?_⟩
          rw [Listing.all_cons]
          exact ((elementListing .full).first_entry.mp ⟨start, found, starts⟩).append behind

theorem reads_record (fits : List.Forall₂ (Fits limit) fields slots) (name : String) (blank : σ) :
    Reads limit (readRecord name limit fields blank) (Tree.record? slots blank) where
  complete := by
    intro tree text rest spaced _ few
    fun_cases readRecord name limit fields blank text with
    | case1 behind found =>
        obtain ⟨members, rfl, listed⟩ := eq_object .full spaced found
        have each : ∀ member ∈ members, ∀ (state : List (List Char) × σ) text mid,
            Spaced text ([':'] :: member.2.tokens) mid → Delimited mid →
              (readField limit fields state (member.1.chars ++ '"' :: text)).toOption =
                (placed slots state member).map (·, mid) := by
          intro member isMember state text mid here delimited
          have smaller := length_lt_object isMember
          exact toOption_readField fits state here (delimited.ends _) (by omega)
        rw [toOption_bind, toOption_readMembers each listed few, Tree.record?]
        cases members.foldlM (placed slots) ([], blank) <;> rfl
    | case2 behind found =>
        obtain ⟨elements, rfl, listed⟩ := eq_array .full spaced found
        exact toOption_readOrdered fits (stands_first listed) fun tree member =>
          Nat.le_trans (Nat.le_of_lt (length_lt_array member)) few
    | case3 noObject noArray =>
        rw [toOption_wrongType]
        cases tree with
        | array elements =>
            obtain ⟨behind, found, _⟩ := (spaced_array_iff .full).mp spaced
            exact absurd found (noArray behind)
        | object members =>
            obtain ⟨behind, found, _⟩ := (spaced_object_iff .full).mp spaced
            exact absurd found (noObject behind)
        | _ => rfl
  sound := by
    intro text rest value
    fun_cases readRecord name limit fields blank text with
    | case1 behind found =>
        intro read
        obtain ⟨_, listed, same⟩ := bind_eq_ok_iff.mp read
        cases same
        exact exists_object found (fun _ _ _ _ here => exists_member fits here) listed
    | case2 behind found =>
        intro read
        obtain ⟨elements, listed⟩ := exists_all fits read
        exact ⟨.array elements, (spaced_array_iff .full).mpr ⟨behind, found, listed⟩⟩
    | case3 => exact fun read => absurd read (wrongType_ne_ok _)

theorem ends_of_record {blank record : σ} {tree : Tree} (means : tree.record? slots blank = some record)
    (rest : List Char) : tree.Ends rest := by
  cases tree with
  | number numeral => cases means
  | _ => trivial

end Redline.Json
