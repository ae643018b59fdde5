import Mathlib.Data.Finset.Insert
import Mathlib.Data.List.Pairwise
import Mathlib.Data.List.Perm.Basic
import Redline.Proofs.Json.Records

/-! The order of an object's members makes no difference to the record it means, and members that
are no fields make none. -/

namespace Redline.Json

variable {σ : Type}

def Independent (first second : Slot σ) : Prop :=
  ∀ {tree tree' put put'}, first.put tree = some put → second.put tree' = some put' →
    ∀ record, put (put' record) = put' (put record)

theorem independent_of {α β : Type} {name name' : String} {meaning : Tree → Option α}
    {meaning' : Tree → Option β} {set : σ → α → σ} {set' : σ → β → σ}
    (apart : ∀ record a b, set (set' record b) a = set' (set record a) b) :
    Independent (.of name meaning set) (.of name' meaning' set') := by
  intro tree tree' put put' here there record
  simp only [Slot.of, Option.map_eq_some_iff] at here there
  obtain ⟨value, _, rfl⟩ := here
  obtain ⟨value', _, rfl⟩ := there
  exact apart record value value'

instance : Std.Symm (@Independent σ) where
  symm _ _ independent := fun here there record => (independent there here record).symm

def effect? (slots : List (Slot σ)) (member : Literal × Tree) :
    Option (Option (List Char × (σ → σ))) := do
  let name ← member.1.decode
  match slots.find? fun slot => slot.name = name with
  | none => return none
  | some slot => (slot.put member.2).map fun put => some (name, put)

abbrev Filled (σ : Type) := Finset (List Char) × σ

def fill (state : Filled σ) : Option (List Char × (σ → σ)) → Option (Filled σ)
  | none => some state
  | some (name, put) => if name ∈ state.1 then none else some (insert name state.1, put state.2)

def filled (state : List (List Char) × σ) : Filled σ :=
  (state.1.toFinset, state.2)

def fillNext (slots : List (Slot σ)) (state : Option (Filled σ)) (member : Literal × Tree) :
    Option (Filled σ) := do
  let state ← state
  let effect ← effect? slots member
  fill state effect

variable {slots : List (Slot σ)}

theorem map_filled_placed (state : List (List Char) × σ) (member : Literal × Tree) :
    (placed slots state member).map filled = fillNext slots (some (filled state)) member := by
  rw [placed, fillNext, effect?]
  cases member.1.decode with
  | none => rfl
  | some name =>
      simp only [Option.bind_eq_bind, Option.bind_some]
      cases slots.find? fun slot => slot.name = name with
      | none => rfl
      | some slot =>
          dsimp only
          cases slot.put member.2 with
          | none => simp
          | some put =>
            by_cases again : name ∈ state.1 <;> simp [again, fill, filled]

theorem foldl_fillNext_none (members : List (Literal × Tree)) :
    members.foldl (fillNext slots) none = none := by
  induction members with
  | nil => rfl
  | cons member members ih => exact ih

theorem map_filled_foldlM (state : List (List Char) × σ) (members : List (Literal × Tree)) :
    (members.foldlM (placed slots) state).map filled =
      members.foldl (fillNext slots) (some (filled state)) := by
  induction members generalizing state with
  | nil => rfl
  | cons member members ih =>
      rw [List.foldlM_cons, List.foldl_cons, ← map_filled_placed]
      cases placed slots state member with
      | none => exact (foldl_fillNext_none members).symm
      | some state => exact ih state

theorem record?_object (blank : σ) (members : List (Literal × Tree)) :
    (Tree.object members).record? slots blank =
      (members.foldl (fillNext slots) (some (filled ([], blank)))).map Prod.snd := by
  rw [← map_filled_foldlM, Option.map_map]
  rfl

theorem exists_slot {member : Literal × Tree} {name : List Char} {put : σ → σ}
    (effect : effect? slots member = some (some (name, put))) :
    ∃ slot ∈ slots, slot.name = name ∧ slot.put member.2 = some put := by
  simp only [effect?, Option.bind_eq_bind, Option.bind_eq_some_iff] at effect
  obtain ⟨key, _, effect⟩ := effect
  split at effect
  next => cases effect
  next slot found =>
    simp only [Option.map_eq_some_iff, Option.some.injEq, Prod.mk.injEq] at effect
    obtain ⟨_, puts, rfl, rfl⟩ := effect
    exact ⟨slot, List.mem_of_find?_eq_some found, by simpa using List.find?_some found, puts⟩

theorem commute_of_independent (independent : slots.Pairwise Independent) {first second : Literal × Tree}
    {name name' : List Char} {put put' : σ → σ} (here : effect? slots first = some (some (name, put)))
    (there : effect? slots second = some (some (name', put'))) (other : name ≠ name') (record : σ) :
    put (put' record) = put' (put record) := by
  obtain ⟨slot, isSlot, rfl, puts⟩ := exists_slot here
  obtain ⟨slot', isSlot', rfl, puts'⟩ := exists_slot there
  have apart : slot ≠ slot' := fun same => other (congrArg Slot.name same)
  exact independent.forall isSlot isSlot' apart puts puts' record

theorem fill_comm {state : Filled σ} {name name' : List Char} {put put' : σ → σ}
    (commute : name ≠ name' → ∀ record, put (put' record) = put' (put record)) :
    (fill state (some (name, put))).bind (fill · (some (name', put'))) =
      (fill state (some (name', put'))).bind (fill · (some (name, put))) := by
  obtain ⟨names, record⟩ := state
  by_cases same : name = name'
  · -- In either order the slot is filled twice, which no state allows.
    subst same
    by_cases again : name ∈ names <;> simp [fill, again]
  · have swapped := Finset.insert_comm name name' names
    by_cases again : name ∈ names <;> by_cases again' : name' ∈ names <;>
      simp [fill, again, again', same, Ne.symm same, commute same record, swapped]

theorem fillNext_comm (independent : slots.Pairwise Independent) (state : Option (Filled σ))
    (first second : Literal × Tree) :
    fillNext slots (fillNext slots state first) second =
      fillNext slots (fillNext slots state second) first := by
  cases state with
  | none => rfl
  | some state =>
      simp only [fillNext, Option.bind_eq_bind, Option.bind_some]
      cases here : effect? slots first with
      | none => simp
      | some effect =>
          cases there : effect? slots second with
          | none => simp
          | some effect' =>
              match effect, effect' with
              | none, _ => simp [fill]
              | _, none => simp [fill]
              | some (name, put), some (name', put') =>
                  exact (fill_comm (commute_of_independent independent here there))

theorem foldl_fillNext_perm (independent : slots.Pairwise Independent)
    {members members' : List (Literal × Tree)}
    (perm : members.Perm members') (state : Option (Filled σ)) :
    members.foldl (fillNext slots) state = members'.foldl (fillNext slots) state :=
  perm.foldl_eq' (fun first _ second _ state => fillNext_comm independent state first second) state

def SameMember (inner : List Char → Tree → Tree → Prop) (old new : Literal × Tree) : Prop :=
  old.1 = new.1 ∧ (old.2 = new.2 ∨ ∃ name, old.1.decode = some name ∧ inner name old.2 new.2)

/-- An object with its members in another order and with members of other names among them. -/
inductive Rearranged (names : List (List Char)) (inner : List Char → Tree → Tree → Prop) :
    Tree → Tree → Prop
  | same (tree : Tree) : Rearranged names inner tree tree
  | object {members changed added rearranged : List (Literal × Tree)} :
      List.Forall₂ (SameMember inner) members changed →
      (∀ member ∈ added, ∃ name, member.1.decode = some name ∧ name ∉ names) →
      rearranged.Perm (changed ++ added) → Rearranged names inner (.object members) (.object rearranged)

inductive EachRearranged (inner : Tree → Tree → Prop) : Tree → Tree → Prop
  | same (tree : Tree) : EachRearranged inner tree tree
  | array {elements changed : List Tree} :
      List.Forall₂ inner elements changed → EachRearranged inner (.array elements) (.array changed)

theorem Rearranged.null {names : List (List Char)} {inner : List Char → Tree → Tree → Prop}
    {old new : Tree} (change : Rearranged names inner old new) : old = .null ↔ new = .null := by
  cases change with
  | same => rfl
  | object => simp

theorem EachRearranged.null {inner : Tree → Tree → Prop} {old new : Tree}
    (change : EachRearranged inner old new) :
    old = .null ↔ new = .null := by
  cases change with
  | same => rfl
  | array => simp

section Meaning

variable {inner : List Char → Tree → Tree → Prop}

def Keeps (slots : List (Slot σ)) (inner : List Char → Tree → Tree → Prop) : Prop :=
  ∀ name old new, inner name old new → ∀ slot, (slots.find? fun slot => slot.name = name) = some slot →
    slot.put old = slot.put new

theorem keeps_unchanged : Keeps slots fun _ _ _ => False :=
  fun _ _ _ impossible => impossible.elim

theorem Slot.put_of_eq {α : Type} {name : String} {meaning : Tree → Option α} {set : σ → α → σ}
    {old new : Tree} (same : meaning old = meaning new) :
    (Slot.of name meaning set).put old = (Slot.of name meaning set).put new := by
  simp only [Slot.of, same]

theorem effect?_eq_of_same (keeps : Keeps slots inner) {old new : Literal × Tree}
    (same : SameMember inner old new) :
    effect? slots old = effect? slots new := by
  obtain ⟨key, tree⟩ := old
  obtain ⟨key', tree'⟩ := new
  obtain ⟨rfl, unchanged | ⟨name, isName, change⟩⟩ := same
  · obtain rfl : tree = tree' := unchanged
    rfl
  · simp only [effect?, isName, Option.bind_eq_bind, Option.bind_some]
    cases found : slots.find? fun slot => slot.name = name with
    | none => rfl
    | some slot =>
        dsimp only
        rw [keeps name tree tree' change slot found]

theorem foldl_fillNext_same (keeps : Keeps slots inner)
    {members changed : List (Literal × Tree)} (same : List.Forall₂ (SameMember inner) members changed)
    (state : Option (Filled σ)) :
    members.foldl (fillNext slots) state = changed.foldl (fillNext slots) state := by
  induction same generalizing state with
  | nil => rfl
  | cons same _ ih =>
      rw [List.foldl_cons, List.foldl_cons, fillNext, effect?_eq_of_same keeps same]
      exact ih _

theorem foldl_fillNext_added {added : List (Literal × Tree)}
    (unknown : ∀ member ∈ added, ∃ name, member.1.decode = some name ∧ name ∉ slots.map Slot.name)
    (state : Option (Filled σ)) : added.foldl (fillNext slots) state = state := by
  induction added with
  | nil => rfl
  | cons member added ih =>
      obtain ⟨name, isName, isUnknown⟩ := unknown member (by simp)
      have noSlot : (slots.find? fun slot => slot.name = name) = none := by
        rw [List.find?_eq_none]
        intro slot isSlot same
        exact isUnknown (List.mem_map.mpr ⟨slot, isSlot, by simpa using same⟩)
      have nothing : fillNext slots state member = state := by
        cases state <;> simp [fillNext, effect?, isName, noSlot, fill]
      rw [List.foldl_cons, nothing]
      exact ih fun later isLater => unknown later (by simp [isLater])

theorem record?_rearranged (independent : slots.Pairwise Independent)
    (keeps : Keeps slots inner) (blank : σ)
    {old new : Tree} (change : Rearranged (slots.map Slot.name) inner old new) :
    old.record? slots blank = new.record? slots blank := by
  cases change with
  | same => rfl
  | @object members changed added rearranged same unknown perm =>
      rw [record?_object, record?_object, foldl_fillNext_perm independent perm, List.foldl_append,
        foldl_fillNext_added unknown, foldl_fillNext_same keeps same]

theorem mapM_eq_of_forall₂ {α : Type} {change : Tree → Tree → Prop} {meaning : Tree → Option α}
    (keeps : ∀ old new, change old new → meaning old = meaning new) {old new : List Tree}
    (each : List.Forall₂ change old new) : old.mapM meaning = new.mapM meaning := by
  induction each with
  | nil => rfl
  | cons same _ ih => rw [List.mapM_cons, List.mapM_cons, keeps _ _ same, ih]

theorem list?_rearranged {α : Type} {change : Tree → Tree → Prop} {meaning : Tree → Option α}
    (keeps : ∀ old new, change old new → meaning old = meaning new) {old new : Tree}
    (each : EachRearranged change old new) : old.list? meaning = new.list? meaning := by
  cases each with
  | same => rfl
  | array each => exact mapM_eq_of_forall₂ keeps each

theorem orDefault?_eq {α : Type} [Inhabited α] {meaning : Tree → Option α} {old new : Tree}
    (null : old = .null ↔ new = .null) (same : meaning old = meaning new) :
    old.orDefault? meaning = new.orDefault? meaning := by
  by_cases isNull : old = .null
  · rw [isNull, null.mp isNull]
  · have notNull : new ≠ .null := fun isNull' => isNull (null.mpr isNull')
    rw [orDefault?_of_ne_null isNull, orDefault?_of_ne_null notNull, same]

end Meaning

end Redline.Json
