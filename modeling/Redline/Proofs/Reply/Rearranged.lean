import Redline.Proofs.Json.Printed
import Redline.Proofs.Json.Rearranged
import Redline.Proofs.Reply.Meaning

/-! Bodies that differ in the order of members, in members that are no fields and in the spaces
between tokens hold the same reply. -/

namespace Redline

open Json

def Turn.Rearranged : Tree → Tree → Prop :=
  Json.Rearranged (Turn.fields.map Field.name) fun _ _ _ => False

def Choice.Rearranged : Tree → Tree → Prop :=
  Json.Rearranged ((Choice.fields 0).map Field.name) fun name old new =>
    name = "message".toList ∧ Turn.Rearranged old new

def PromptTokens.Rearranged : Tree → Tree → Prop :=
  Json.Rearranged (PromptTokens.fields.map Field.name) fun _ _ _ => False

def CompletionTokens.Rearranged : Tree → Tree → Prop :=
  Json.Rearranged (CompletionTokens.fields.map Field.name) fun _ _ _ => False

def Usage.Rearranged : Tree → Tree → Prop :=
  Json.Rearranged ((Usage.fields 0).map Field.name) fun name old new =>
    (name = "prompt_tokens_details".toList ∧ PromptTokens.Rearranged old new) ∨
      name = "completion_tokens_details".toList ∧ CompletionTokens.Rearranged old new

def Reply.Rearranged : Tree → Tree → Prop :=
  Json.Rearranged ((Reply.fields 0).map Field.name) fun name old new =>
    (name = "choices".toList ∧ EachRearranged Choice.Rearranged old new) ∨
      name = "usage".toList ∧ Usage.Rearranged old new

theorem Turn.independent : Turn.slots.Pairwise Independent := by
  simp [Turn.slots, independent_of]

theorem Choice.independent : Choice.slots.Pairwise Independent := by
  simp [Choice.slots, independent_of]

theorem PromptTokens.independent : PromptTokens.slots.Pairwise Independent := by
  simp [PromptTokens.slots, independent_of]

theorem CompletionTokens.independent : CompletionTokens.slots.Pairwise Independent := by
  simp [CompletionTokens.slots, independent_of]

theorem Usage.independent : Usage.slots.Pairwise Independent := by
  simp [Usage.slots, independent_of]

theorem Reply.independent : Reply.slots.Pairwise Independent := by
  simp [Reply.slots, independent_of]

section Meaning

variable {old new : Tree}

theorem Turn.record?_rearranged (change : Turn.Rearranged old new) :
    old.record? Turn.slots {} = new.record? Turn.slots {} :=
  Json.record?_rearranged Turn.independent keeps_unchanged _ change

theorem PromptTokens.record?_rearranged (change : PromptTokens.Rearranged old new) :
    old.record? PromptTokens.slots {} = new.record? PromptTokens.slots {} :=
  Json.record?_rearranged PromptTokens.independent keeps_unchanged _ change

theorem CompletionTokens.record?_rearranged (change : CompletionTokens.Rearranged old new) :
    old.record? CompletionTokens.slots {} = new.record? CompletionTokens.slots {} :=
  Json.record?_rearranged CompletionTokens.independent keeps_unchanged _ change

theorem Choice.record?_rearranged (change : Choice.Rearranged old new) :
    old.record? Choice.slots {} = new.record? Choice.slots {} := by
  refine Json.record?_rearranged Choice.independent ?_ _ change
  rintro _ old new ⟨rfl, change⟩ slot found
  cases found
  exact Slot.put_of_eq (orDefault?_eq change.null (Turn.record?_rearranged change))

theorem Usage.record?_rearranged (change : Usage.Rearranged old new) :
    old.record? Usage.slots {} = new.record? Usage.slots {} := by
  refine Json.record?_rearranged Usage.independent ?_ _ change
  rintro _ old new (⟨rfl, change⟩ | ⟨rfl, change⟩) slot found
  · cases found
    exact Slot.put_of_eq (PromptTokens.record?_rearranged change)
  · cases found
    exact Slot.put_of_eq (CompletionTokens.record?_rearranged change)

theorem Reply.record?_rearranged (change : Reply.Rearranged old new) : old.reply? = new.reply? := by
  refine Json.record?_rearranged Reply.independent ?_ _ change
  rintro _ old new (⟨rfl, change⟩ | ⟨rfl, change⟩) slot found
  · cases found
    exact Slot.put_of_eq (orDefault?_eq change.null
      (list?_rearranged (fun _ _ inner => Choice.record?_rearranged inner) change))
  · cases found
    exact Slot.put_of_eq (orDefault?_eq change.null (Usage.record?_rearranged change))

end Meaning

/-- The order of members, members that are no fields and the spaces between tokens make no
difference to a body: it is accepted or not, and holds the same reply. -/
theorem Reply.ofText_rearranged {old new : Tree} {before after : String}
    (change : Reply.Rearranged old new)
    (spellsOld : Spells before.toList old) (spellsNew : Spells after.toList new) :
    (∀ reply, Reply.ofText before = .ok reply ↔ Reply.ofText after = .ok reply) ∧
    ∀ answer, (∃ reply, Reply.ofText before = .ok reply ∧ reply.content = answer) ↔
      ∃ reply, Reply.ofText after = .ok reply ∧ reply.content = answer := by
  have same (reply : Reply) : Reply.ofText before = .ok reply ↔ Reply.ofText after = .ok reply := by
    rw [ofText_eq_ok_iff_ofChars, ofText_eq_ok_iff_ofChars, ← toOption_eq_some_iff,
      ← toOption_eq_some_iff, toOption_ofChars spellsOld, toOption_ofChars spellsNew,
      record?_rearranged change]
  refine ⟨same, fun answer => ?_⟩
  simp only [same]

theorem Reply.ofText_rearranged_usageFirst : ∃ old new, Reply.Rearranged old new ∧
    Spells "\x7b\"id\":\"a\",\"usage\":\x7b\x7d\x7d".toList old ∧
    Spells "\x7b\"usage\":\x7b\"x\":null\x7d,\"id\":\"a\"\x7d\n".toList new ∧
    Reply.ofText "\x7b\"id\":\"a\",\"usage\":\x7b\x7d\x7d" = .ok { id := "a" } ∧
    Reply.ofText "\x7b\"usage\":\x7b\"x\":null\x7d,\"id\":\"a\"\x7d\n" = .ok { id := "a" } := by
  let id : Literal × Tree := (written ['i', 'd'], .string (written ['a']))
  let usage (members : List (Literal × Tree)) : Literal × Tree :=
    (written ['u', 's', 'a', 'g', 'e'], .object members)
  let unknown : Literal × Tree := (written ['x'], .null)
  let old : Tree := .object [id, usage []]
  let new : Tree := .object [usage [unknown], id]
  have inner : Usage.Rearranged (usage []).2 (usage [unknown]).2 := by
    refine .object .nil ?_ (List.Perm.refl [unknown])
    exact List.forall_mem_singleton.mpr ⟨['x'], decode_written _, by decide⟩
  have change : Reply.Rearranged old new := by
    have perm : List.Perm [usage [unknown], id] ([id, usage [unknown]] ++ []) := List.Perm.swap _ _ []
    refine .object ?_ (List.forall_mem_nil _) perm
    exact .cons ⟨rfl, .inl rfl⟩ (.cons ⟨rfl, .inr ⟨_, decode_written _, .inr ⟨rfl, inner⟩⟩⟩ .nil)
  have spellsOld : Spells "\x7b\"id\":\"a\",\"usage\":\x7b\x7d\x7d".toList old := old.spells
  have spellsNew : Spells "\x7b\"usage\":\x7b\"x\":null\x7d,\"id\":\"a\"\x7d\n".toList new := by
    have newline : ∀ c ∈ ['\n'], isSpace c = true := List.forall_mem_singleton.mpr rfl
    exact new.spells.append newline
  have accepted : Reply.ofText "\x7b\"id\":\"a\",\"usage\":\x7b\x7d\x7d" = .ok { id := "a" } := by rfl
  exact ⟨old, new, change, spellsOld, spellsNew, accepted,
    ((Reply.ofText_rearranged change spellsOld spellsNew).1 _).mp accepted⟩

end Redline
