import Redline.Proofs.Json.Quoting
import Redline.Proofs.Reply.Places

/-! The content of a reply against the string that is written for it. -/

namespace Redline

open Json

def Reply.contentPath : List Place :=
  [.field RecordKind.reply.names "choices".toList, .element 0,
    .field RecordKind.choice.names "message".toList, .field RecordKind.turn.names "content".toList]

theorem leads_content : Leads Tree.reply? Reply.contentPath (Tree.orDefault? Tree.text?)
    fun reply => reply.choices[0]?.bind fun choice => some choice.message.content := by
  have turn : Leads (Tree.record? Turn.slots {}) [.field RecordKind.turn.names "content".toList]
      (Tree.orDefault? Tree.text?) fun turn => some turn.content :=
    .field (.here fun _ => rfl) Turn.independent rfl (fun _ _ => rfl) _
  exact leads_choice 0 (.field (.orDefault turn) Choice.independent rfl (fun _ _ => rfl) _)

theorem Reply.content_eq_ok_iff {reply : Reply} {text : String} : reply.content = .ok text ↔
    (reply.choices[0]?.bind fun choice => some choice.message.content) = some text := by
  rw [content]
  cases reply.choices <;> simp

theorem spells_quoted (literal : Literal) : Spells (quoted literal.chars) (.string literal) :=
  ⟨[], by simp [quoted, skipSpaces, isSpace], List.forall_mem_nil _⟩

section Literals

variable {context : Context} {front back sampleText : List Char} {sample : Tree} {reply : Reply}

theorem Reply.ofText_literal (place : context.Follows contentPath) (around : context.Surrounds front back)
    (spells : Spells sampleText sample)
    (accepted : Reply.ofText (String.ofList (front ++ (sampleText ++ back))) = .ok reply)
    (literal : Literal) :
    (∀ text, literal.decode = some text →
      ∃ reply', Reply.ofText (String.ofList (front ++ (quoted literal.chars ++ back))) = .ok reply' ∧
        reply'.content = .ok (String.ofList text)) ∧
    (literal.decode = none →
      ∃ cause, Reply.ofText (String.ofList (front ++ (quoted literal.chars ++ back))) =
        .error (.notParsed cause)) := by
  have spellsOld := around.spells spells
  have spellsNew := around.spells (spells_quoted literal)
  rw [← String.toList_ofList (l := front ++ _)] at spellsOld spellsNew
  obtain ⟨accepts, refuses⟩ := ofText_of_leads leads_content place spellsOld accepted spellsNew
  have means : (Tree.string literal).orDefault? Tree.text? = literal.decode.map String.ofList :=
    orDefault?_of_ne_null nofun
  constructor
  · intro text decoded
    rw [decoded] at means
    obtain ⟨reply', isReply, value⟩ := accepts _ means
    exact ⟨reply', isReply, content_eq_ok_iff.mpr value⟩
  · intro undecoded
    rw [undecoded] at means
    exact refuses means

theorem Reply.ofText_misspelled (around : context.Surrounds front back) (literal : Literal)
    {broken : List Char} (misspelled : Misspelled broken) :
    ∃ cause, Reply.ofText (String.ofList (front ++ '"' :: (literal.chars ++ broken))) =
      .error (.notParsed cause) := by
  obtain ⟨gap, _, isFront, blank, _⟩ := around
  refine notParsed_of_not_ok fun reply' accepted => ?_
  obtain ⟨tree, spells, _⟩ := ofText_eq_ok_iff.mp accepted
  rw [String.toList_ofList] at spells
  have passed := Quoting.run_of_spells spells
  rw [Quoting.run_append, Quoting.run_front isFront blank, Option.bind_some, Quoting.run_cons,
    Quoting.next, if_pos rfl, Option.bind_some, Quoting.run_append, Quoting.run_literal,
    Option.bind_some] at passed
  exact misspelled.run_ne passed

/-- Whatever way a text is written as the content of a body, it is the content that is read. A string
with half of a surrogate pair or with anything that no string may hold is refused, whatever follows. -/
theorem Reply.ofText_content (place : context.Follows contentPath) (around : context.Surrounds front back)
    (spells : Spells sampleText sample)
    (accepted : Reply.ofText (String.ofList (front ++ (sampleText ++ back))) = .ok reply) :
    (∀ text written, Spelled text written →
      ∃ reply', Reply.ofText (String.ofList (front ++ (quoted written ++ back))) = .ok reply' ∧
        reply'.content = .ok (String.ofList text)) ∧
    (∀ literal : Literal, literal.Unpaired →
      ∃ cause, Reply.ofText (String.ofList (front ++ (quoted literal.chars ++ back))) =
        .error (.notParsed cause)) ∧
    ∀ (literal : Literal) (broken : List Char), Misspelled broken →
      ∃ cause, Reply.ofText (String.ofList (front ++ '"' :: (literal.chars ++ broken))) =
        .error (.notParsed cause) := by
  refine ⟨?_, ?_, fun literal broken => ofText_misspelled around literal⟩
  · intro text written spelled
    obtain ⟨literal, rfl, decoded⟩ := spelled.exists_literal
    exact (ofText_literal place around spells accepted literal).1 text decoded
  · intro literal unpaired
    exact (ofText_literal place around spells accepted literal).2 (Literal.decode_unpaired unpaired)

end Literals

theorem Reply.ofText_content_pair : ∃ (context : Context) (sample : Tree), context.Follows contentPath ∧
    context.Surrounds "\x7b\"choices\":[\x7b\"message\":\x7b\"content\":".toList "\x7d\x7d]\x7d".toList ∧
    Spells "\"a\"".toList sample ∧
    Reply.ofText "\x7b\"choices\":[\x7b\"message\":\x7b\"content\":\"a\"\x7d\x7d]\x7d" =
      .ok { choices := [{ message := { content := "a" } }] } ∧
    Spelled ['é', '😀'] "\\u00E9\\ud83D\\uDE00".toList ∧
    ∃ reply, Reply.ofText
        "\x7b\"choices\":[\x7b\"message\":\x7b\"content\":\"\\u00E9\\ud83D\\uDE00\"\x7d\x7d]\x7d" = .ok reply ∧
      reply.content = .ok "é😀" := by
  let context : Context := [.member [] (written "choices".toList) [], .element [] [],
    .member [] (written "message".toList) [], .member [] (written "content".toList) []]
  have place : context.Follows contentPath :=
    .cons (decode_written _) (.cons rfl (.cons (decode_written _) (.cons (decode_written _) .nil)))
  have around : context.Surrounds "\x7b\"choices\":[\x7b\"message\":\x7b\"content\":".toList
      "\x7d\x7d]\x7d".toList := context.surrounds
  have spells : Spells "\"a\"".toList (.string (written ['a'])) := (Tree.string (written ['a'])).spells
  have accepted : Reply.ofText "\x7b\"choices\":[\x7b\"message\":\x7b\"content\":\"a\"\x7d\x7d]\x7d" =
      .ok { choices := [{ message := { content := "a" } }] } := by rfl
  have accent : HexUnit "00E9".toList 'é'.toNat := hexUnit_iff.mpr ⟨rfl, List.all_eq_true.mp rfl, rfl⟩
  have high : HexUnit "d83D".toList 0xD83D := hexUnit_iff.mpr ⟨rfl, List.all_eq_true.mp rfl, rfl⟩
  have low : HexUnit "DE00".toList 0xDE00 := hexUnit_iff.mpr ⟨rfl, List.all_eq_true.mp rfl, rfl⟩
  have spelled : Spelled ['é', '😀'] "\\u00E9\\ud83D\\uDE00".toList :=
    .unit accent (.pair high low ⟨by decide, by decide⟩ ⟨by decide, by decide⟩ (by decide) .nil)
  obtain ⟨reply, isReply, content⟩ :=
    (Reply.ofText_content place around spells accepted).1 _ _ spelled
  exact ⟨context, _, place, around, spells, accepted, spelled, reply, isReply, content⟩

end Redline
