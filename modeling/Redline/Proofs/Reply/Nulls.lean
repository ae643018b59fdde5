import Redline.Proofs.Json.Nulls
import Redline.Proofs.Reply.Rearranged

/-! Nulls in place of missing fields. Texts, lists, options and the records that are read with a
default may be null in any of the records of a body. Numbers may not, and neither may the records that
hold nothing but numbers. -/

namespace Redline

open Json

inductive RecordKind where
  | reply
  | choice
  | turn
  | usage
  | promptTokens
  | completionTokens

namespace RecordKind

def names : RecordKind → List (List Char)
  | reply => (Reply.fields 0).map Field.name
  | choice => (Choice.fields 0).map Field.name
  | turn => Turn.fields.map Field.name
  | usage => (Usage.fields 0).map Field.name
  | promptTokens => PromptTokens.fields.map Field.name
  | completionTokens => CompletionTokens.fields.map Field.name

def strict : RecordKind → List (List Char)
  | reply => ["created".toList]
  | choice => ["index".toList]
  | turn => []
  | usage => usage.names
  | promptTokens => promptTokens.names
  | completionTokens => completionTokens.names

def Within (inner : Tree → Tree → Prop) : RecordKind → Tree → Tree → Prop
  | reply => inner
  | choice => WithinField reply.names "choices".toList (WithinList inner)
  | turn => WithinField reply.names "choices".toList
      (WithinList (WithinField choice.names "message".toList inner))
  | usage => WithinField reply.names "usage".toList inner
  | promptTokens => WithinField reply.names "usage".toList
      (WithinField usage.names "prompt_tokens_details".toList inner)
  | completionTokens => WithinField reply.names "usage".toList
      (WithinField usage.names "completion_tokens_details".toList inner)

end RecordKind

section Judged

variable {name : List Char}

theorem Turn.judges_null (known : name ∈ RecordKind.turn.names) :
    Judges (decide (name ∈ RecordKind.turn.strict)) (Tree.record? Turn.slots {}) (NullAdded name) := by
  refine judges_nullAdded Turn.independent ?_ known
  simp only [Turn.slots, List.forall_mem_cons]
  exact ⟨rfl, rfl, rfl, by simp⟩

theorem Choice.judges_null (known : name ∈ RecordKind.choice.names) :
    Judges (decide (name ∈ RecordKind.choice.strict)) (Tree.record? Choice.slots {}) (NullAdded name) := by
  refine judges_nullAdded Choice.independent ?_ known
  simp only [Choice.slots, List.forall_mem_cons]
  exact ⟨rfl, rfl, rfl, rfl, by simp⟩

theorem PromptTokens.judges_null (known : name ∈ RecordKind.promptTokens.names) :
    Judges (decide (name ∈ RecordKind.promptTokens.strict)) (Tree.record? PromptTokens.slots {})
      (NullAdded name) := by
  refine judges_nullAdded PromptTokens.independent ?_ known
  simp only [PromptTokens.slots, List.forall_mem_cons]
  exact ⟨rfl, rfl, by simp⟩

theorem CompletionTokens.judges_null (known : name ∈ RecordKind.completionTokens.names) :
    Judges (decide (name ∈ RecordKind.completionTokens.strict)) (Tree.record? CompletionTokens.slots {})
      (NullAdded name) := by
  refine judges_nullAdded CompletionTokens.independent ?_ known
  simp only [CompletionTokens.slots, List.forall_mem_cons]
  exact ⟨rfl, rfl, rfl, rfl, by simp⟩

theorem Usage.judges_null (known : name ∈ RecordKind.usage.names) :
    Judges (decide (name ∈ RecordKind.usage.strict)) (Tree.record? Usage.slots {}) (NullAdded name) := by
  refine judges_nullAdded Usage.independent ?_ known
  simp only [Usage.slots, List.forall_mem_cons]
  exact ⟨rfl, rfl, rfl, rfl, rfl, by simp⟩

theorem Reply.judges_null (known : name ∈ RecordKind.reply.names) :
    Judges (decide (name ∈ RecordKind.reply.strict)) Tree.reply? (NullAdded name) := by
  refine judges_nullAdded Reply.independent ?_ known
  simp only [Reply.slots, List.forall_mem_cons]
  exact ⟨rfl, rfl, rfl, rfl, rfl, rfl, rfl, rfl, by simp⟩

variable {refused : Bool} {change : Tree → Tree → Prop}

theorem judges_withinChoice (judges : Judges refused (Tree.record? Choice.slots {}) change) :
    Judges refused Tree.reply? (WithinField RecordKind.reply.names "choices".toList (WithinList change)) :=
  judges_withinField Reply.independent rfl
    (judges_of (judges_orDefault (judges_withinList judges)) "choices"
      fun reply choices => { reply with choices }) {}

theorem judges_withinUsage (judges : Judges refused (Tree.record? Usage.slots {}) change) :
    Judges refused Tree.reply? (WithinField RecordKind.reply.names "usage".toList change) :=
  judges_withinField Reply.independent rfl
    (judges_of (judges_orDefault judges) "usage" fun reply usage => { reply with usage }) {}

theorem RecordKind.judges_null (kind : RecordKind) (known : name ∈ kind.names) :
    Judges (decide (name ∈ kind.strict)) Tree.reply? (kind.Within (NullAdded name)) := by
  cases kind with
  | reply => exact Reply.judges_null known
  | choice => exact judges_withinChoice (Choice.judges_null known)
  | turn =>
      refine judges_withinChoice (judges_withinField Choice.independent rfl ?_ {})
      exact judges_of (judges_orDefault (Turn.judges_null known)) _ _
  | usage => exact judges_withinUsage (Usage.judges_null known)
  | promptTokens =>
      refine judges_withinUsage (judges_withinField Usage.independent rfl ?_ {})
      exact judges_of (PromptTokens.judges_null known) _ _
  | completionTokens =>
      refine judges_withinUsage (judges_withinField Usage.independent rfl ?_ {})
      exact judges_of (CompletionTokens.judges_null known) _ _

end Judged

/-- A null for a field that one of the records does not have makes no difference to a body, unless the
field is strict; then the body is refused. -/
theorem Reply.ofText_nullAdded {kind : RecordKind} {name : List Char} {old new : Tree} {before after : String}
    (known : name ∈ kind.names) (added : kind.Within (NullAdded name) old new)
    (spellsOld : Spells before.toList old) (spellsNew : Spells after.toList new) (reply : Reply) :
    Reply.ofText after = .ok reply ↔ name ∉ kind.strict ∧ Reply.ofText before = .ok reply := by
  rw [ofText_eq_ok_iff_ofChars, ofText_eq_ok_iff_ofChars, ← toOption_eq_some_iff,
    ← toOption_eq_some_iff, toOption_ofChars spellsOld, toOption_ofChars spellsNew,
    (kind.judges_null known).means added]
  by_cases refused : name ∈ kind.strict <;> simp [refused]

theorem Reply.ofText_nullAdded_refusal : ∃ old new,
    "refusal".toList ∈ RecordKind.turn.names ∧ RecordKind.turn.Within (NullAdded "refusal".toList) old new ∧
    Spells "\x7b\"choices\":[\x7b\"message\":\x7b\"content\":\"a\"\x7d\x7d]\x7d".toList old ∧
    Spells "\x7b\"choices\":[\x7b\"message\":\x7b\"refusal\":null,\"content\":\"a\"\x7d\x7d]\x7d".toList new ∧
    Reply.ofText "\x7b\"choices\":[\x7b\"message\":\x7b\"refusal\":null,\"content\":\"a\"\x7d\x7d]\x7d" =
      .ok { choices := [{ message := { content := "a" } }] } := by
  let content : Literal × Tree := (written "content".toList, .string (written ['a']))
  let refusal : Literal × Tree := (written "refusal".toList, .null)
  let body (members : List (Literal × Tree)) : Tree :=
    .object [(written "choices".toList, .array [.object [(written "message".toList, .object members)]])]
  have known : "refusal".toList ∈ RecordKind.turn.names := by decide
  have inner : NullAdded "refusal".toList (.object [content]) (.object [refusal, content]) := by
    refine @NullAdded.intro _ [] [content] _ (decode_written _) ?_
    rw [List.nil_append, List.forall_mem_singleton, decode_written]
    decide
  have added : RecordKind.turn.Within (NullAdded "refusal".toList) (body [content]) (body [refusal, content]) :=
    @WithinField.member _ _ _ [] [] _ _ _ (decode_written _)
      (@WithinList.intro _ [] [] _ _ (@WithinField.member _ _ _ [] [] _ _ _ (decode_written _) inner))
  have spellsOld : Spells "\x7b\"choices\":[\x7b\"message\":\x7b\"content\":\"a\"\x7d\x7d]\x7d".toList
      (body [content]) := (body [content]).spells
  have spellsNew :
      Spells "\x7b\"choices\":[\x7b\"message\":\x7b\"refusal\":null,\"content\":\"a\"\x7d\x7d]\x7d".toList
        (body [refusal, content]) := (body [refusal, content]).spells
  refine ⟨_, _, known, added, spellsOld, spellsNew, ?_⟩
  exact (Reply.ofText_nullAdded known added spellsOld spellsNew _).mpr ⟨by decide, by rfl⟩

theorem Reply.ofText_nullCreated : ∃ old new,
    "created".toList ∈ RecordKind.reply.names ∧ RecordKind.reply.Within (NullAdded "created".toList) old new ∧
    Spells "\x7b\x7d".toList old ∧ Spells "\x7b\"created\":null\x7d".toList new ∧
    Reply.ofText "\x7b\x7d" = .ok {} ∧
    Reply.ofText "\x7b\"created\":null\x7d" =
      .error (.notParsed "invalid type: null, expected i64 at line 1 column 15") := by
  let new : Tree := .object [(written "created".toList, .null)]
  have added : RecordKind.reply.Within (NullAdded "created".toList) (.object []) new :=
    @NullAdded.intro _ [] [] _ (decode_written _) (List.forall_mem_nil _)
  have spellsOld : Spells "\x7b\x7d".toList (.object []) := (Tree.object []).spells
  have spellsNew : Spells "\x7b\"created\":null\x7d".toList new := new.spells
  exact ⟨_, _, by decide, added, spellsOld, spellsNew, by rfl, by rfl⟩

end Redline
