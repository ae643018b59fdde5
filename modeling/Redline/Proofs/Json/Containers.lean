import Redline.Json.Container
import Redline.Proofs.Json.Strings

/-! The items of lists and objects against their tokens. A text that lists items is read entry by
entry to its closing bracket, and what has been read so lists items. -/

namespace Redline.Json

/-- How items are listed: what tokens they have, where each starts when it is read, and how the
first and every other one is found. -/
structure Listing (ι : Type) where
  tokens : ι → List Token
  close : Char
  Starts : ι → List Char → List Char → Prop
  first : List Char → Except Fault Next
  follow : List Char → Except Fault Next
  close_ends : extendsNumber close = false
  first_done : ∀ {text rest : List Char}, first text = .ok (.done rest) ↔ Spaced text [[close]] rest
  first_entry : ∀ {text mid : List Char} {item : ι},
    (∃ start, first text = .ok (.entry start) ∧ Starts item start mid) ↔ Spaced text (tokens item) mid
  follow_done : ∀ {text rest : List Char}, follow text = .ok (.done rest) ↔ Spaced text [[close]] rest
  follow_entry : ∀ {text mid : List Char} {item : ι},
    (∃ start, follow text = .ok (.entry start) ∧ Starts item start mid) ↔
      Spaced text ([','] :: tokens item) mid

namespace Listing

variable {ι σ : Type} (listing : Listing ι)

def later (items : List ι) : List Token :=
  items.flatMap (fun item => [','] :: listing.tokens item) ++ [[listing.close]]

def all (items : List ι) : List Token :=
  separated (items.map listing.tokens) ++ [[listing.close]]

theorem all_cons (item : ι) (items : List ι) :
    listing.all (item :: items) = listing.tokens item ++ listing.later items := by
  simp [all, later, separated, List.flatMap_map]

theorem later_cons (item : ι) (items : List ι) :
    listing.later (item :: items) = ([','] :: listing.tokens item) ++ listing.later items := by
  simp [later]

theorem delimited_of_later {items : List ι} {text rest : List Char}
    (spaced : Spaced text (listing.later items) rest) : Delimited text := by
  cases items with
  | nil => exact spaced.delimited listing.close_ends
  | cons item items => exact spaced.delimited (by decide)

theorem length_lt_later (items : List ι) : items.length < (listing.later items).length := by
  induction items with
  | nil => simp [later]
  | cons item items ih =>
      rw [later_cons, List.length_append, List.length_cons, List.length_cons]
      omega

theorem length_le_all (items : List ι) : items.length ≤ (listing.all items).length := by
  cases items with
  | nil => simp
  | cons item items =>
      have := listing.length_lt_later items
      rw [all_cons, List.length_append, List.length_cons]
      omega

theorem length_tokens_lt_later {item : ι} {items : List ι} (member : item ∈ items) :
    (listing.tokens item).length < (listing.later items).length := by
  obtain ⟨before, after, rfl⟩ := List.append_of_mem member
  simp only [later, List.flatMap_append, List.flatMap_cons, List.length_append, List.length_cons]
  omega

theorem length_tokens_lt_all {item : ι} {items : List ι} (member : item ∈ items) :
    (listing.tokens item).length < (listing.all items).length := by
  cases items with
  | nil => simp at member
  | cons first items =>
      rw [all_cons, List.length_append]
      rcases List.mem_cons.mp member with rfl | later
      · have := listing.length_lt_later items
        omega
      · have := listing.length_tokens_lt_later later
        omega

variable {entry : σ → Reader σ} {step : σ → ι → Option σ}

theorem toOption_entries {item : ι} {items : List ι} {start mid rest : List Char} {limit : Nat}
    {state : σ}
    (reads : ∀ item' ∈ item :: items, ∀ state start mid, listing.Starts item' start mid → Delimited mid →
      (entry state start).toOption = (step state item').map (·, mid))
    (starts : listing.Starts item start mid) (behind : Spaced mid (listing.later items) rest)
    (few : items.length < limit) :
    (readEntries listing.follow entry limit state (.entry start)).toOption =
      ((item :: items).foldlM step state).map (·, rest) := by
  -- What stands behind an item, a comma or the closing bracket, shows where the item ends.
  induction items generalizing item start mid limit state with
  | nil =>
      obtain ⟨limit, rfl⟩ := Nat.exists_eq_succ_of_ne_zero (Nat.ne_zero_of_lt few)
      have found := listing.follow_done.mpr behind
      rw [readEntries, toOption_bind,
        reads item (by simp) state start mid starts (listing.delimited_of_later behind)]
      cases stepped : step state item <;> simp [stepped, found, readEntries]
  | cons second items ih =>
      obtain ⟨limit, rfl⟩ := Nat.exists_eq_succ_of_ne_zero (Nat.ne_zero_of_lt few)
      have delimited := listing.delimited_of_later behind
      rw [listing.later_cons] at behind
      obtain ⟨next, here, later⟩ := behind.split
      obtain ⟨start', found, starts'⟩ := listing.follow_entry.mpr here
      rw [readEntries, toOption_bind, reads item (by simp) state start mid starts delimited,
        List.foldlM_cons]
      cases stepped : step state item with
      | none => rfl
      | some state =>
          simp only [Option.map_some, Option.bind_some, found, ok_bind]
          exact ih (fun item' member => reads item' (by simp [member])) starts' later
            (Nat.lt_of_succ_lt_succ few)

theorem toOption_read {items : List ι} {text rest : List Char} {limit : Nat} {state : σ}
    (reads : ∀ item ∈ items, ∀ state start mid, listing.Starts item start mid → Delimited mid →
      (entry state start).toOption = (step state item).map (·, mid))
    (spaced : Spaced text (listing.all items) rest) (few : items.length ≤ limit) :
    (listing.first text >>= readEntries listing.follow entry limit state).toOption =
      (items.foldlM step state).map (·, rest) := by
  cases items with
  | nil =>
      rw [listing.first_done.mpr spaced]
      cases limit <;> rfl
  | cons item items =>
      rw [listing.all_cons] at spaced
      obtain ⟨mid, here, behind⟩ := spaced.split
      obtain ⟨start, found, starts⟩ := listing.first_entry.mpr here
      rw [found]
      exact listing.toOption_entries reads starts behind few

theorem exists_entries {limit : Nat} {state final : σ} {start rest : List Char}
    (sound : ∀ state start final mid, entry state start = .ok (final, mid) →
      ∃ item, listing.Starts item start mid)
    (read : readEntries listing.follow entry limit state (.entry start) = .ok (final, rest)) :
    ∃ item items mid, listing.Starts item start mid ∧ Spaced mid (listing.later items) rest := by
  induction limit generalizing state start with
  | zero => simp [readEntries] at read
  | succ limit ih =>
      rw [readEntries, bind_eq_ok_iff] at read
      obtain ⟨⟨state, mid⟩, here, read⟩ := read
      obtain ⟨item, starts⟩ := sound _ _ _ _ here
      obtain ⟨next, found, read⟩ := bind_eq_ok_iff.mp read
      cases next with
      | done behind =>
          have same : behind = rest := by
            cases limit <;> exact (Prod.mk.inj (Except.ok.inj read)).2
          exact ⟨item, [], mid, starts, same ▸ listing.follow_done.mp found⟩
      | entry start' =>
          obtain ⟨item', items, mid', starts', behind⟩ := ih read
          refine ⟨item, item' :: items, mid, starts, ?_⟩
          rw [listing.later_cons]
          exact (listing.follow_entry.mp ⟨start', found, starts'⟩).append behind

theorem exists_items {limit : Nat} {state final : σ} {text rest : List Char}
    (sound : ∀ state start final mid, entry state start = .ok (final, mid) →
      ∃ item, listing.Starts item start mid)
    (read : (listing.first text >>= readEntries listing.follow entry limit state) = .ok (final, rest)) :
    ∃ items, Spaced text (listing.all items) rest := by
  obtain ⟨next, found, read⟩ := bind_eq_ok_iff.mp read
  cases next with
  | done behind =>
      have same : behind = rest := by
        cases limit <;> exact (Prod.mk.inj (Except.ok.inj read)).2
      exact ⟨[], same ▸ listing.first_done.mp found⟩
  | entry start =>
      obtain ⟨item, items, mid, starts, behind⟩ := listing.exists_entries sound read
      refine ⟨item :: items, ?_⟩
      rw [listing.all_cons]
      exact (listing.first_entry.mp ⟨start, found, starts⟩).append behind

end Listing

theorem skipSpaces_of_spaced {text rest : List Char} {tree : Tree}
    (spaced : Spaced text tree.tokens rest) :
    ∃ c behind, skipSpaces text = c :: behind ∧ c ≠ ']' := by
  obtain ⟨c, token, tokens, start, solid, other⟩ := tree.exists_start
  rw [start, spaced_cons_iff solid] at spaced
  obtain ⟨behind, found, _⟩ := spaced
  exact ⟨c, _, found, other⟩

def elementListing (care : Care) : Listing Tree where
  tokens := Tree.tokens
  close := ']'
  Starts tree start mid := Spaced start tree.tokens mid
  first := firstElement
  follow := nextElement care
  close_ends := by decide
  first_done := by
    intro text rest
    rw [spaced_cons_iff (by decide)]
    fun_cases firstElement text <;> simp_all
  first_entry := by
    intro text mid tree
    constructor
    · rintro ⟨start, found, starts⟩
      have same : skipSpaces text = start := by
        revert found
        fun_cases firstElement text <;> simp_all
      rwa [← same, spaced_skipSpaces_iff] at starts
    · intro spaced
      obtain ⟨c, behind, found, other⟩ := skipSpaces_of_spaced spaced
      refine ⟨skipSpaces text, ?_, (spaced_skipSpaces_iff tree).mpr spaced⟩
      have notClose := other.symm
      fun_cases firstElement text <;> simp_all
  follow_done := by
    intro text rest
    rw [spaced_cons_iff (by decide)]
    fun_cases nextElement care text <;> simp_all
  follow_entry := by
    intro text mid tree
    rw [spaced_cons_iff (by decide)]
    constructor
    · rintro ⟨start, found, starts⟩
      have same : ∃ behind, skipSpaces text = ',' :: behind ∧ skipSpaces behind = start := by
        revert found
        fun_cases nextElement care text <;> simp_all
      obtain ⟨behind, comma, rfl⟩ := same
      exact ⟨behind, comma, (spaced_skipSpaces_iff tree).mp starts⟩
    · rintro ⟨behind, comma, spaced⟩
      obtain ⟨c, more, found, other⟩ := skipSpaces_of_spaced spaced
      refine ⟨skipSpaces behind, ?_, (spaced_skipSpaces_iff tree).mpr spaced⟩
      fun_cases nextElement care text <;> simp_all

/-- A member starts behind the quote that opens its key. -/
def memberListing (care : Care) : Listing (Literal × Tree) where
  tokens := memberTokensOf
  close := '}'
  Starts member start mid :=
    ∃ behind, start = member.1.chars ++ '"' :: behind ∧ Spaced behind ([':'] :: member.2.tokens) mid
  first := firstMember
  follow := nextMember care
  close_ends := by decide
  first_done := by
    intro text rest
    rw [spaced_cons_iff (by decide)]
    fun_cases firstMember text <;> simp_all
  first_entry := by
    rintro text mid ⟨key, tree⟩
    rw [memberTokensOf, Literal.token, spaced_cons_iff (by decide)]
    fun_cases firstMember text <;> simp_all
  follow_done := by
    intro text rest
    rw [spaced_cons_iff (by decide)]
    fun_cases nextMember care text <;> simp_all
  follow_entry := by
    rintro text mid ⟨key, tree⟩
    simp only [memberTokensOf, Literal.token, spaced_cons_iff (show isSpace ',' = false by decide),
      spaced_cons_iff (show isSpace '"' = false by decide)]
    fun_cases nextMember care text <;> simp_all

theorem spaced_array_iff (care : Care) {text rest : List Char} {elements : List Tree} :
    Spaced text (Tree.array elements).tokens rest ↔ ∃ behind, skipSpaces text = '[' :: behind ∧
      Spaced behind ((elementListing care).all elements) rest := by
  rw [Tree.tokens, elementTokens_eq_map, spaced_cons_iff (by decide)]
  rfl

theorem spaced_object_iff (care : Care) {text rest : List Char} {members : List (Literal × Tree)} :
    Spaced text (Tree.object members).tokens rest ↔ ∃ behind, skipSpaces text = '{' :: behind ∧
      Spaced behind ((memberListing care).all members) rest := by
  rw [Tree.tokens, memberTokens_eq_map, spaced_cons_iff (by decide)]
  rfl

theorem length_lt_array {tree : Tree} {elements : List Tree} (member : tree ∈ elements) :
    tree.tokens.length < (Tree.array elements).tokens.length := by
  have := (elementListing .full).length_tokens_lt_all member
  rw [Tree.tokens, elementTokens_eq_map]
  exact Nat.lt_succ_of_lt this

theorem length_lt_object {member : Literal × Tree} {members : List (Literal × Tree)}
    (isMember : member ∈ members) : member.2.tokens.length < (Tree.object members).tokens.length := by
  have all := (memberListing .full).length_tokens_lt_all isMember
  have own : member.2.tokens.length < ((memberListing .full).tokens member).length :=
    Nat.lt_succ_of_lt (Nat.lt_succ_self _)
  rw [Tree.tokens, memberTokens_eq_map]
  exact Nat.lt_succ_of_lt (Nat.lt_trans own all)

section Reading

variable {σ : Type} {care : Care} {limit : Nat} {entry : σ → Reader σ} {text rest : List Char}

theorem toOption_readElements {step : σ → Tree → Option σ} {elements : List Tree} {state : σ}
    (reads : ∀ tree ∈ elements, ∀ state text mid, Spaced text tree.tokens mid → Delimited mid →
      (entry state text).toOption = (step state tree).map (·, mid))
    (spaced : Spaced text ((elementListing care).all elements) rest)
    (few : (Tree.array elements).tokens.length ≤ limit) :
    (readElements care limit entry state text).toOption = (elements.foldlM step state).map (·, rest) := by
  rw [Tree.tokens, elementTokens_eq_map] at few
  exact (elementListing care).toOption_read reads spaced
    (Nat.le_trans ((elementListing care).length_le_all elements) (Nat.le_of_succ_le few))

theorem toOption_readMembers {step : σ → Literal × Tree → Option σ} {members : List (Literal × Tree)}
    {state : σ}
    (reads : ∀ member ∈ members, ∀ state text mid,
      Spaced text ([':'] :: member.2.tokens) mid → Delimited mid →
      (entry state (member.1.chars ++ '"' :: text)).toOption = (step state member).map (·, mid))
    (spaced : Spaced text ((memberListing care).all members) rest)
    (few : (Tree.object members).tokens.length ≤ limit) :
    (readMembers care limit entry state text).toOption = (members.foldlM step state).map (·, rest) := by
  rw [Tree.tokens, memberTokens_eq_map] at few
  refine (memberListing care).toOption_read ?_ spaced
    (Nat.le_trans ((memberListing care).length_le_all members) (Nat.le_of_succ_le few))
  rintro member isMember state start mid ⟨behind, rfl, value⟩ delimited
  exact reads member isMember state behind mid value delimited

theorem exists_array {state final : σ} {behind : List Char} (found : skipSpaces text = '[' :: behind)
    (sound : ∀ state text final mid, entry state text = .ok (final, mid) →
      ∃ tree : Tree, Spaced text tree.tokens mid)
    (read : readElements care limit entry state behind = .ok (final, rest)) :
    ∃ tree : Tree, Spaced text tree.tokens rest := by
  obtain ⟨elements, spaced⟩ := (elementListing care).exists_items sound read
  exact ⟨.array elements, (spaced_array_iff care).mpr ⟨behind, found, spaced⟩⟩

theorem exists_object {state final : σ} {behind : List Char} (found : skipSpaces text = '{' :: behind)
    (sound : ∀ state text final mid, entry state text = .ok (final, mid) →
      ∃ (key : Literal) (tree : Tree) (behind : List Char),
        text = key.chars ++ '"' :: behind ∧ Spaced behind ([':'] :: tree.tokens) mid)
    (read : readMembers care limit entry state behind = .ok (final, rest)) :
    ∃ tree : Tree, Spaced text tree.tokens rest := by
  have starts (state : σ) (start : List Char) (final : σ) (mid : List Char)
      (here : entry state start = .ok (final, mid)) :
      ∃ member, (memberListing care).Starts member start mid := by
    obtain ⟨key, tree, behind, quoted, value⟩ := sound state start final mid here
    exact ⟨(key, tree), behind, quoted, value⟩
  obtain ⟨members, spaced⟩ := (memberListing care).exists_items starts read
  exact ⟨.object members, (spaced_object_iff care).mpr ⟨behind, found, spaced⟩⟩

end Reading

theorem spaced_colon_iff {text rest : List Char} {tokens : List Token} :
    Spaced text ([':'] :: tokens) rest ↔
      ∃ behind, readColon text = .ok behind ∧ Spaced behind tokens rest := by
  rw [spaced_cons_iff (by decide)]
  fun_cases readColon text <;> simp_all

end Redline.Json
