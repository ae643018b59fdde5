import Redline.Proofs.Json.Rearranged

/-! Places within a tree. A frame is a list or an object with one of its values taken out, and frames
within one another lead from the whole to a value. An accepted record does not care what stands in the
place of a field, as long as it means something: it is the same but for that field. -/

namespace Redline.Json

inductive Frame where
  | element (before after : List Tree)
  | member (before : List (Literal × Tree)) (key : Literal) (after : List (Literal × Tree))

inductive Place where
  | field (names : List (List Char)) (name : List Char)
  | element (index : Nat)

abbrev Context := List Frame

namespace Frame

def fill : Frame → Tree → Tree
  | element before after, tree => .array (before ++ tree :: after)
  | member before key after, tree => .object (before ++ (key, tree) :: after)

/-- The fields of a record stand under their names, or in the order of the names without them. -/
def Is : Frame → Place → Prop
  | element before _, .field names name => names.idxOf name = before.length
  | member _ key _, .field _ name => key.decode = some name
  | element before _, .element index => before.length = index
  | member _ _ _, .element _ => False

def front : Frame → List Token
  | element before _ => ['['] :: before.flatMap fun tree => tree.tokens ++ [[',']]
  | member before key _ =>
    ['{'] :: ((before.flatMap fun member => memberTokensOf member ++ [[',']]) ++ [key.token, [':']])

def back : Frame → List Token
  | element _ after => (after.flatMap fun tree => [','] :: tree.tokens) ++ [[']']]
  | member _ _ after => (after.flatMap fun member => [','] :: memberTokensOf member) ++ [['}']]

theorem fill_ne_null (frame : Frame) (tree : Tree) : frame.fill tree ≠ .null := by
  cases frame <;> simp [fill]

end Frame

namespace Context

def fill (context : Context) (tree : Tree) : Tree :=
  context.foldr Frame.fill tree

def Follows (context : Context) (path : List Place) : Prop :=
  List.Forall₂ Frame.Is context path

def front (context : Context) : List Token :=
  context.flatMap Frame.front

def back : Context → List Token
  | [] => []
  | frame :: context => back context ++ frame.back

end Context

theorem Context.follows_cons_iff {context : Context} {place : Place} {path : List Place} :
    context.Follows (place :: path) ↔
      ∃ (frame : Frame) (later : Context), frame.Is place ∧ later.Follows path ∧ context = frame :: later :=
  List.forall₂_cons_right_iff

theorem Context.fill_cons (frame : Frame) (context : Context) (tree : Tree) :
    fill (frame :: context) tree = frame.fill (context.fill tree) :=
  rfl

theorem separated_middle (before after : List (List Token)) (item : List Token) :
    separated (before ++ item :: after) =
      before.flatMap (· ++ [[',']]) ++ (item ++ after.flatMap ([','] :: ·)) := by
  induction before with
  | nil => rfl
  | cons first before ih =>
      cases before with
      | nil => simp [separated]
      | cons second before =>
          simp only [List.cons_append, separated, List.flatMap_cons, List.append_assoc] at ih ⊢
          rw [ih]
          simp

theorem Frame.tokens_fill (frame : Frame) (tree : Tree) :
    (frame.fill tree).tokens = frame.front ++ (tree.tokens ++ frame.back) := by
  cases frame with
  | element before after =>
      rw [fill, Tree.tokens, elementTokens_eq_map, List.map_append, List.map_cons, separated_middle]
      simp [front, back, List.flatMap_map]
  | member before key after =>
      rw [fill, Tree.tokens, memberTokens_eq_map, List.map_append, List.map_cons, separated_middle]
      simp [front, back, List.flatMap_map, memberTokensOf]

theorem Context.tokens_fill (context : Context) (tree : Tree) :
    (context.fill tree).tokens = context.front ++ (tree.tokens ++ context.back) := by
  induction context with
  | nil => simp [fill, front, back]
  | cons frame context ih =>
      simp only [fill, List.foldr_cons, front, List.flatMap_cons, back] at ih ⊢
      rw [Frame.tokens_fill, ih]
      simp

def Context.Surrounds (context : Context) (front back : List Char) : Prop :=
  ∃ gap rest, Spaced front context.front gap ∧ (∀ c ∈ gap, isSpace c = true) ∧
    Spaced back context.back rest ∧ ∀ c ∈ rest, isSpace c = true

theorem Spaced.behind_spaces {gap text rest : List Char} {tokens : List Token}
    (spaced : Spaced text tokens rest) (ended : ∀ c ∈ rest, isSpace c = true)
    (blank : ∀ c ∈ gap, isSpace c = true) :
    ∃ rest', Spaced (gap ++ text) tokens rest' ∧ ∀ c ∈ rest', isSpace c = true := by
  cases spaced with
  | done => exact ⟨gap ++ text, .done _, List.forall_mem_append.mpr ⟨blank, ended⟩⟩
  | token blank' some behind =>
      rw [← List.append_assoc]
      exact ⟨rest, .token (List.forall_mem_append.mpr ⟨blank, blank'⟩) some behind, ended⟩

theorem Context.Surrounds.spells {context : Context} {front back text : List Char} {tree : Tree}
    (around : context.Surrounds front back) (spells : Spells text tree) :
    Spells (front ++ (text ++ back)) (context.fill tree) := by
  obtain ⟨gap, rest, isFront, blank, isBack, ended⟩ := around
  obtain ⟨rest', spaced, blank'⟩ := spells
  obtain ⟨last, behind, blankLast⟩ := isBack.behind_spaces ended blank'
  obtain ⟨last, inner, blankLast⟩ := ((spaced.extend back).append behind).behind_spaces blankLast blank
  rw [Spells, context.tokens_fill]
  exact ⟨last, (isFront.extend _).append inner, blankLast⟩

theorem Context.surrounds (context : Context) :
    context.Surrounds context.front.flatten context.back.flatten := by
  have solid := (context.fill .null).tokens_ne_nil
  rw [context.tokens_fill, List.forall_mem_append, List.forall_mem_append] at solid
  have isFront := Spaced.flatten solid.1 []
  have isBack := Spaced.flatten solid.2.2 []
  rw [List.append_nil] at isFront isBack
  exact ⟨[], [], isFront, List.forall_mem_nil _, isBack, List.forall_mem_nil _⟩

section Meaning

variable {σ α : Type} {slots : List (Slot σ)} {slot : Slot σ} {name : List Char} {frame : Frame}
  {old : Tree}

theorem ordered_put {put : σ → σ} {tree : Tree} (puts : slot.put tree = some put)
    (apart : ∀ other ∈ slots, Independent slot other) (record : σ) (elements : List Tree) :
    ordered slots (put record) elements = (ordered slots record elements).map put := by
  induction slots generalizing record elements with
  | nil => cases elements <;> rfl
  | cons other slots ih =>
      cases elements with
      | nil => rfl
      | cons element elements =>
          simp only [ordered]
          cases there : other.put element with
          | none => rfl
          | some put' =>
              have swapped := apart other (by simp) puts there record
              simp only [Option.bind_eq_bind, Option.bind_some]
              rw [← swapped]
              exact ih (fun later isLater => apart later (by simp [isLater])) (put' record) elements

theorem ordered_fill (independent : slots.Pairwise Independent)
    (found : (slots.find? fun slot => slot.name = name) = some slot) {before after : List Tree}
    (place : (slots.map Slot.name).idxOf name = before.length) {record final : σ}
    (means : ordered slots record (before ++ old :: after) = some final) :
    ∃ base, ∀ tree, ordered slots record (before ++ tree :: after) =
      (slot.put tree).map fun put => put base := by
  induction slots generalizing before record with
  | nil => cases found
  | cons first slots ih =>
      rw [List.pairwise_cons] at independent
      by_cases same : first.name = name
      · obtain rfl : first = slot := by simpa [same] using found
        obtain rfl : before = [] := by simpa [same] using place.symm
        simp only [List.nil_append, ordered, Option.bind_eq_bind] at means ⊢
        obtain ⟨put, puts, means⟩ := Option.bind_eq_some_iff.mp means
        rw [ordered_put puts independent.1, Option.map_eq_some_iff] at means
        obtain ⟨base, isBase, _⟩ := means
        refine ⟨base, fun tree => ?_⟩
        cases puts' : first.put tree with
        | none => rfl
        | some put' =>
            rw [Option.bind_some, ordered_put puts' independent.1, isBase]
            rfl
      · cases before with
        | nil => simp [same] at place
        | cons element before =>
            have later : (slots.find? fun slot => slot.name = name) = some slot := by
              simpa [same] using found
            have place' : (slots.map Slot.name).idxOf name = before.length := by
              simpa [List.idxOf_cons, same] using place
            simp only [List.cons_append, ordered, Option.bind_eq_bind] at means ⊢
            obtain ⟨put, puts, means⟩ := Option.bind_eq_some_iff.mp means
            simp only [puts, Option.bind_some]
            exact ih independent.2 later place' means

theorem foldl_fillNext_fill (independent : slots.Pairwise Independent)
    (found : (slots.find? fun slot => slot.name = name) = some slot) {before after : List (Literal × Tree)}
    {key : Literal} (isName : key.decode = some name) {blank record : σ}
    (means : (Tree.object (before ++ (key, old) :: after)).record? slots blank = some record) :
    ∃ base, ∀ tree, (Tree.object (before ++ (key, tree) :: after)).record? slots blank =
      (slot.put tree).map fun put => put base := by
  have last (tree : Tree) : (Tree.object (before ++ (key, tree) :: after)).record? slots blank =
      (fillNext slots ((before ++ after).foldl (fillNext slots) (some (filled ([], blank))))
        (key, tree)).map Prod.snd := by
    have perm : (before ++ (key, tree) :: after).Perm (before ++ after ++ [(key, tree)]) :=
      List.perm_middle.trans (List.perm_append_singleton _ _).symm
    rw [record?_object, foldl_fillNext_perm independent perm, List.foldl_append]
    rfl
  have effect (tree : Tree) :
      effect? slots (key, tree) = (slot.put tree).map fun put => some (name, put) := by
    simp only [effect?, isName, Option.bind_eq_bind, Option.bind_some, found]
  rw [last] at means
  cases others : (before ++ after).foldl (fillNext slots) (some (filled ([], blank))) with
  | none => simp [others, fillNext] at means
  | some state =>
      obtain ⟨names, base⟩ := state
      rw [others] at means
      have fresh : name ∉ names := by
        intro again
        cases puts : slot.put old <;> simp [fillNext, effect, puts, fill, again] at means
      refine ⟨base, fun tree => ?_⟩
      rw [last, others]
      cases puts : slot.put tree <;> simp [fillNext, effect, puts, fill, fresh]

theorem record?_fill (independent : slots.Pairwise Independent)
    (found : (slots.find? fun slot => slot.name = name) = some slot)
    (place : frame.Is (.field (slots.map Slot.name) name)) {blank record : σ}
    (means : (frame.fill old).record? slots blank = some record) :
    ∃ base, ∀ tree, (frame.fill tree).record? slots blank = (slot.put tree).map fun put => put base := by
  cases frame with
  | element before after => exact ordered_fill independent found place means
  | member before key after => exact foldl_fillNext_fill independent found place means

theorem length_of_mapM {meaning : Tree → Option α} {elements : List Tree} {values : List α}
    (means : elements.mapM meaning = some values) : values.length = elements.length := by
  induction elements generalizing values with
  | nil =>
      cases means
      rfl
  | cons tree elements ih =>
      rw [List.mapM_cons] at means
      obtain ⟨value, _, means⟩ := Option.bind_eq_some_iff.mp means
      obtain ⟨values, each, same⟩ := Option.bind_eq_some_iff.mp means
      cases same
      rw [List.length_cons, List.length_cons, ih each]

theorem list?_fill {meaning : Tree → Option α} {index : Nat} (place : frame.Is (.element index))
    {values : List α} (means : (frame.fill old).list? meaning = some values) :
    ∃ before after, before.length = index ∧ ∀ tree, (frame.fill tree).list? meaning =
      (meaning tree).map fun value => before ++ value :: after := by
  cases frame with
  | member before key after => cases place
  | element before after =>
      simp only [Frame.fill, Tree.list?, List.mapM_append, List.mapM_cons] at means ⊢
      obtain ⟨fronts, isFront, means⟩ := Option.bind_eq_some_iff.mp means
      obtain ⟨_, inner, _⟩ := Option.bind_eq_some_iff.mp means
      obtain ⟨_, _, inner⟩ := Option.bind_eq_some_iff.mp inner
      obtain ⟨backs, isBack, _⟩ := Option.bind_eq_some_iff.mp inner
      refine ⟨fronts, backs, (length_of_mapM isFront).trans place, fun tree => ?_⟩
      rw [isFront, isBack]
      cases meaning tree <;> rfl

end Meaning

/-- Values at the end of a path count by what they mean there, and that is what is found in the whole. -/
structure Leads {α β : Type} (meaning : Tree → Option α) (path : List Place) (inner : Tree → Option β)
    (get : α → Option β) : Prop where
  means : ∀ {context : Context} {old : Tree} {whole : α}, context.Follows path →
    meaning (context.fill old) = some whole →
      ∀ tree, (meaning (context.fill tree)).map get = (inner tree).map some

namespace Leads

variable {α β : Type} {meaning : Tree → Option α} {inner : Tree → Option β} {get : α → Option β}
  {place : Place} {path : List Place}

theorem here (same : ∀ tree, (meaning tree).map get = (inner tree).map some) :
    Leads meaning [] inner get := by
  constructor
  intro context old whole follows _ tree
  cases follows
  exact same tree

theorem field {σ : Type} {slots : List (Slot σ)} {name : String} {set : σ → α → σ}
    (leads : Leads meaning path inner get) (independent : slots.Pairwise Independent)
    (found : (slots.find? fun slot => slot.name = name.toList) = some (.of name meaning set))
    {part : σ → α} (kept : ∀ record value, part (set record value) = value) (blank : σ) :
    Leads (Tree.record? slots blank) (.field (slots.map Slot.name) name.toList :: path) inner
      fun record => get (part record) := by
  constructor
  intro context old whole follows means tree
  obtain ⟨frame, context, first, later, rfl⟩ := Context.follows_cons_iff.mp follows
  rw [Context.fill_cons] at means ⊢
  obtain ⟨base, filled⟩ := record?_fill independent found first means
  have filled (tree : Tree) : (frame.fill tree).record? slots blank = (meaning tree).map (set base) := by
    rw [filled, Slot.of, Option.map_map]
    rfl
  rw [filled, Option.map_eq_some_iff] at means
  obtain ⟨value, means, _⟩ := means
  calc ((frame.fill (context.fill tree)).record? slots blank).map (fun record => get (part record))
      = (meaning (context.fill tree)).map fun value => get (part (set base value)) := by
        rw [filled, Option.map_map]
        rfl
    _ = (meaning (context.fill tree)).map get := by simp only [kept]
    _ = (inner tree).map some := leads.means later means tree

theorem element (leads : Leads meaning path inner get) (index : Nat) :
    Leads (Tree.list? meaning) (.element index :: path) inner fun values => values[index]?.bind get := by
  constructor
  intro context old whole follows means tree
  obtain ⟨frame, context, first, later, rfl⟩ := Context.follows_cons_iff.mp follows
  rw [Context.fill_cons] at means ⊢
  obtain ⟨before, after, rfl, filled⟩ := list?_fill first means
  rw [filled, Option.map_eq_some_iff] at means
  obtain ⟨value, means, _⟩ := means
  calc ((frame.fill (context.fill tree)).list? meaning).map (fun values => values[before.length]?.bind get)
      = (meaning (context.fill tree)).map get := by
        rw [filled, Option.map_map]
        simp [Function.comp_def]
    _ = (inner tree).map some := leads.means later means tree

theorem orDefault [Inhabited α] (leads : Leads meaning (place :: path) inner get) :
    Leads (Tree.orDefault? meaning) (place :: path) inner get := by
  constructor
  intro context old whole follows means tree
  have notNull (tree : Tree) : context.fill tree ≠ .null := by
    obtain ⟨frame, context, _, _, rfl⟩ := Context.follows_cons_iff.mp follows
    exact frame.fill_ne_null _
  rw [orDefault?_of_ne_null (notNull _)] at means ⊢
  exact leads.means follows means tree

end Leads

end Redline.Json
