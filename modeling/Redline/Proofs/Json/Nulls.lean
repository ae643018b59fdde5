import Redline.Proofs.Json.Rearranged

/-! Nulls put into records. A null under a new name goes into its own slot and leaves the others as
they were, and what becomes of a record within another one becomes of both. -/

namespace Redline.Json

variable {σ α : Type} {slots : List (Slot σ)}

inductive NullAdded (name : List Char) : Tree → Tree → Prop
  | intro {before after : List (Literal × Tree)} {key : Literal} : key.decode = some name →
      (∀ member ∈ before ++ after, member.1.decode ≠ some name) →
      NullAdded name (.object (before ++ after)) (.object (before ++ (key, .null) :: after))

inductive WithinField (names : List (List Char)) (name : List Char) (inner : Tree → Tree → Prop) :
    Tree → Tree → Prop
  | member {before after : List (Literal × Tree)} {key : Literal} {old new : Tree} :
      key.decode = some name → inner old new →
      WithinField names name inner (.object (before ++ (key, old) :: after))
        (.object (before ++ (key, new) :: after))
  | element {before after : List Tree} {old new : Tree} :
      names.idxOf name = before.length → inner old new →
      WithinField names name inner (.array (before ++ old :: after)) (.array (before ++ new :: after))

inductive WithinList (inner : Tree → Tree → Prop) : Tree → Tree → Prop
  | intro {before after : List Tree} {old new : Tree} : inner old new →
      WithinList inner (.array (before ++ old :: after)) (.array (before ++ new :: after))

/-- A change that is refused leaves no meaning, and any other one leaves it as it was. -/
structure Judges (refused : Bool) (meaning : Tree → Option α) (change : Tree → Tree → Prop) : Prop where
  means : ∀ {old new}, change old new → meaning new = if refused then none else meaning old
  notNull : ∀ {old new}, change old new → old ≠ .null ∧ new ≠ .null

theorem fillNext_insert {member : Literal × Tree} {name : List Char} (other : member.1.decode ≠ some name)
    (names : Finset (List Char)) (record : σ) :
    fillNext slots (some (insert name names, record)) member =
      (fillNext slots (some (names, record)) member).map (Prod.map (insert name) id) := by
  simp only [fillNext, effect?, Option.bind_eq_bind, Option.bind_some]
  cases key : member.1.decode with
  | none => rfl
  | some name' =>
      have apart : name' ≠ name := by
        rintro rfl
        exact other key
      dsimp only [Option.bind_some]
      cases slots.find? fun slot => slot.name = name' with
      | none => rfl
      | some slot =>
          dsimp only
          cases slot.put member.2 with
          | none => rfl
          | some put => by_cases again : name' ∈ names <;> simp [fill, again, apart, Finset.insert_comm]

theorem foldl_fillNext_insert {members : List (Literal × Tree)} {name : List Char}
    (absent : ∀ member ∈ members, member.1.decode ≠ some name) (names : Finset (List Char)) (record : σ) :
    members.foldl (fillNext slots) (some (insert name names, record)) =
      (members.foldl (fillNext slots) (some (names, record))).map (Prod.map (insert name) id) := by
  induction members generalizing names record with
  | nil => rfl
  | cons member members ih =>
      rw [List.foldl_cons, List.foldl_cons, fillNext_insert (absent member (by simp))]
      cases fillNext slots (some (names, record)) member with
      | none => rw [Option.map_none, foldl_fillNext_none, Option.map_none]
      | some state => exact ih (fun later isLater => absent later (by simp [isLater])) state.1 state.2

theorem record?_null (independent : slots.Pairwise Independent) {before after : List (Literal × Tree)}
    {key : Literal} {name : List Char} {slot : Slot σ} (isName : key.decode = some name)
    (found : (slots.find? fun slot => slot.name = name) = some slot)
    (absent : ∀ member ∈ before ++ after, member.1.decode ≠ some name) (blank : σ) :
    (Tree.object (before ++ (key, .null) :: after)).record? slots blank =
      (slot.put .null).bind fun put => (Tree.object (before ++ after)).record? slots (put blank) := by
  rw [record?_object, foldl_fillNext_perm independent List.perm_middle, List.foldl_cons]
  cases null : slot.put .null with
  | none => simp [fillNext, effect?, isName, found, null, foldl_fillNext_none]
  | some put =>
      have first : fillNext slots (some (filled ([], blank))) (key, .null) =
          some (insert name ∅, put blank) := by
        simp [fillNext, effect?, isName, found, null, fill, filled]
      rw [first, foldl_fillNext_insert absent, Option.map_map, Option.bind_some, record?_object]
      rfl

theorem exists_found {name : List Char} (known : name ∈ slots.map Slot.name) :
    ∃ slot ∈ slots, (slots.find? fun slot => slot.name = name) = some slot ∧ slot.name = name := by
  obtain ⟨slot, member, same⟩ := List.mem_map.mp known
  have isSome : (slots.find? fun slot => slot.name = name).isSome := by
    rw [List.find?_isSome]
    exact ⟨slot, member, by simpa using same⟩
  obtain ⟨first, found⟩ := Option.isSome_iff_exists.mp isSome
  exact ⟨first, List.mem_of_find?_eq_some found, found, by simpa using List.find?_some found⟩

theorem judges_nullAdded (independent : slots.Pairwise Independent) {blank : σ} {strict : List (List Char)}
    (nulls : ∀ slot ∈ slots, (slot.put .null).map (fun put => put blank) =
      if slot.name ∈ strict then none else some blank)
    {name : List Char} (known : name ∈ slots.map Slot.name) :
    Judges (decide (name ∈ strict)) (Tree.record? slots blank) (NullAdded name) where
  means := by
    rintro _ _ ⟨isName, absent⟩
    obtain ⟨slot, member, found, rfl⟩ := exists_found known
    have judged := nulls slot member
    rw [record?_null independent isName found absent]
    cases null : slot.put .null with
    | none =>
        rw [null] at judged
        split at judged
        next refused => simp [refused]
        next => cases judged
    | some put =>
        rw [null] at judged
        split at judged
        next => cases judged
        next kept =>
          rw [Option.map_some, Option.some.injEq] at judged
          simp [kept, judged]
  notNull := by
    rintro _ _ ⟨_, _⟩
    simp

section Inside

variable {refused : Bool} {change : Tree → Tree → Prop} {name : List Char}

theorem judges_of {meaning : Tree → Option α} (judges : Judges refused meaning change) (field : String)
    (set : σ → α → σ) : Judges refused (Slot.of field meaning set).put change where
  means := by
    intro old new changed
    simp only [Slot.of, judges.means changed]
    cases refused <;> simp
  notNull := judges.notNull

theorem judges_orDefault [Inhabited α] {meaning : Tree → Option α} (judges : Judges refused meaning change) :
    Judges refused (Tree.orDefault? meaning) change where
  means := by
    intro old new changed
    obtain ⟨oldNotNull, newNotNull⟩ := judges.notNull changed
    rw [orDefault?_of_ne_null oldNotNull, orDefault?_of_ne_null newNotNull, judges.means changed]
  notNull := judges.notNull

theorem judges_withinList {meaning : Tree → Option α} (judges : Judges refused meaning change) :
    Judges refused (Tree.list? meaning) (WithinList change) where
  means := by
    rintro _ _ ⟨changed⟩
    next before after old new =>
      rw [Tree.list?, Tree.list?, List.mapM_append, List.mapM_append, List.mapM_cons, List.mapM_cons,
        judges.means changed]
      cases refused with
      | false => rfl
      | true => cases before.mapM meaning <;> rfl
  notNull := by
    rintro _ _ ⟨_⟩
    simp

theorem ordered_judged {slot : Slot σ} (found : (slots.find? fun slot => slot.name = name) = some slot)
    (judges : Judges refused slot.put change) {before after : List Tree} {old new : Tree}
    (place : (slots.map Slot.name).idxOf name = before.length) (changed : change old new) (record : σ) :
    ordered slots record (before ++ new :: after) =
      if refused then none else ordered slots record (before ++ old :: after) := by
  induction slots generalizing before record with
  | nil => cases found
  | cons first slots ih =>
      by_cases same : first.name = name
      · obtain rfl : first = slot := by simpa [same] using found
        obtain rfl : before = [] := by simpa [same] using place.symm
        simp only [List.nil_append, ordered, judges.means changed]
        cases refused <;> rfl
      · cases before with
        | nil => simp [same] at place
        | cons tree before =>
            have later : (slots.find? fun slot => slot.name = name) = some slot := by
              simpa [same] using found
            have place' : (slots.map Slot.name).idxOf name = before.length := by
              simpa [List.idxOf_cons, same] using place
            simp only [List.cons_append, ordered]
            cases first.put tree with
            | none => cases refused <;> rfl
            | some put => exact ih later place' (put record)

theorem effect?_judged {slot : Slot σ} (found : (slots.find? fun slot => slot.name = name) = some slot)
    (judges : Judges refused slot.put change) {key : Literal} (isName : key.decode = some name)
    {old new : Tree} (changed : change old new) :
    effect? slots (key, new) = if refused then none else effect? slots (key, old) := by
  simp only [effect?, isName, Option.bind_eq_bind, Option.bind_some, found, judges.means changed]
  cases refused <;> rfl

theorem judges_withinField (independent : slots.Pairwise Independent) {slot : Slot σ}
    (found : (slots.find? fun slot => slot.name = name) = some slot)
    (judges : Judges refused slot.put change) (blank : σ) :
    Judges refused (Tree.record? slots blank) (WithinField (slots.map Slot.name) name change) where
  means := by
    rintro _ _ (⟨isName, changed⟩ | ⟨place, changed⟩)
    · have effect := effect?_judged found judges isName changed
      rw [record?_object, record?_object, foldl_fillNext_perm independent List.perm_middle,
        foldl_fillNext_perm independent List.perm_middle, List.foldl_cons, List.foldl_cons, fillNext,
        effect]
      cases refused with
      | false => rfl
      | true => exact congrArg (Option.map Prod.snd) (foldl_fillNext_none _)
    · exact ordered_judged found judges place changed blank
  notNull := by
    rintro _ _ (_ | _) <;> simp

end Inside

end Redline.Json
