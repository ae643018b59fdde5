import Redline.Proofs.Json.Records
import Redline.Reply.Read

/-! What the tree of a body means as a reply. A body is accepted if it spells a tree that means a
reply, and that is the reply it holds. -/

namespace Redline

open Json

def Turn.slots : List (Slot Turn) :=
  [.of "role" (Tree.orDefault? Tree.text?) fun turn role => { turn with role },
   .of "content" (Tree.orDefault? Tree.text?) fun turn content => { turn with content },
   .of "refusal" (Tree.option? Tree.text?) fun turn refusal => { turn with refusal }]

def Choice.slots : List (Slot Choice) :=
  [.of "index" Tree.count? fun choice index => { choice with index },
   .of "message" (Tree.orDefault? (Tree.record? Turn.slots {})) fun choice message =>
     { choice with message },
   .of "logprobs" (Tree.option? (Tree.value? (nestingLimit - 3))) fun choice logprobs =>
     { choice with logprobs },
   .of "finish_reason" (Tree.orDefault? Tree.text?) fun choice finishReason =>
     { choice with finishReason }]

def PromptTokens.slots : List (Slot PromptTokens) :=
  [.of "cached_tokens" Tree.count? fun tokens cached => { tokens with cached },
   .of "audio_tokens" Tree.count? fun tokens audio => { tokens with audio }]

def CompletionTokens.slots : List (Slot CompletionTokens) :=
  [.of "reasoning_tokens" Tree.count? fun tokens reasoning => { tokens with reasoning },
   .of "audio_tokens" Tree.count? fun tokens audio => { tokens with audio },
   .of "accepted_prediction_tokens" Tree.count? fun tokens acceptedPrediction =>
     { tokens with acceptedPrediction },
   .of "rejected_prediction_tokens" Tree.count? fun tokens rejectedPrediction =>
     { tokens with rejectedPrediction }]

def Usage.slots : List (Slot Usage) :=
  [.of "prompt_tokens" Tree.count? fun usage prompt => { usage with prompt },
   .of "completion_tokens" Tree.count? fun usage completion => { usage with completion },
   .of "total_tokens" Tree.count? fun usage total => { usage with total },
   .of "prompt_tokens_details" (Tree.record? PromptTokens.slots {}) fun usage promptDetails =>
     { usage with promptDetails },
   .of "completion_tokens_details" (Tree.record? CompletionTokens.slots {}) fun usage completionDetails =>
     { usage with completionDetails }]

def Reply.slots : List (Slot Reply) :=
  [.of "id" (Tree.orDefault? Tree.text?) fun reply id => { reply with id },
   .of "object" (Tree.orDefault? Tree.text?) fun reply object => { reply with object },
   .of "created" (Tree.integer? .signed64) fun reply created => { reply with created },
   .of "model" (Tree.orDefault? Tree.text?) fun reply model => { reply with model },
   .of "choices" (Tree.orDefault? (Tree.list? (Tree.record? Choice.slots {}))) fun reply choices =>
     { reply with choices },
   .of "usage" (Tree.orDefault? (Tree.record? Usage.slots {})) fun reply usage => { reply with usage },
   .of "service_tier" (Tree.orDefault? Tree.text?) fun reply serviceTier => { reply with serviceTier },
   .of "system_fingerprint" (Tree.orDefault? Tree.text?) fun reply systemFingerprint =>
     { reply with systemFingerprint }]

def Json.Tree.reply? : Tree → Option Reply :=
  Tree.record? Reply.slots {}

variable {limit : Nat}

theorem fits_text {σ : Type} (name : String) (set : σ → String → σ) :
    Fits limit (.of name (readOrDefault readText) set) (.of name (Tree.orDefault? Tree.text?) set) :=
  fits_of (reads_orDefault reads_text) name set

theorem fits_count {σ : Type} (name : String) (set : σ → Nat → σ) :
    Fits limit (.of name readCount set) (.of name Tree.count? set) :=
  fits_of reads_count name set

theorem Turn.reads : Reads limit (Turn.read limit) (Tree.record? Turn.slots {}) := by
  refine reads_record (.cons ?_ (.cons ?_ (.cons ?_ .nil))) _ _
  · exact fits_text _ _
  · exact fits_text _ _
  · exact fits_of (reads_option reads_text) _ _

theorem Choice.reads : Reads limit (Choice.read limit) (Tree.record? Choice.slots {}) := by
  refine reads_record (.cons ?_ (.cons ?_ (.cons ?_ (.cons ?_ .nil)))) _ _
  · exact fits_count _ _
  · exact fits_of (reads_orDefault Turn.reads) _ _
  · exact fits_of (reads_option (reads_value _)) _ _
  · exact fits_text _ _

theorem PromptTokens.reads : Reads limit (PromptTokens.read limit) (Tree.record? PromptTokens.slots {}) :=
  reads_record (.cons (fits_count _ _) (.cons (fits_count _ _) .nil)) _ _

theorem CompletionTokens.reads :
    Reads limit (CompletionTokens.read limit) (Tree.record? CompletionTokens.slots {}) := by
  refine reads_record (.cons ?_ (.cons ?_ (.cons ?_ (.cons ?_ .nil)))) _ _ <;> exact fits_count _ _

theorem Usage.reads : Reads limit (Usage.read limit) (Tree.record? Usage.slots {}) := by
  refine reads_record (.cons ?_ (.cons ?_ (.cons ?_ (.cons ?_ (.cons ?_ .nil))))) _ _
  · exact fits_count _ _
  · exact fits_count _ _
  · exact fits_count _ _
  · exact fits_of PromptTokens.reads _ _
  · exact fits_of CompletionTokens.reads _ _

theorem Reply.reads : Reads limit (Reply.read limit) Tree.reply? := by
  refine reads_record (.cons ?_ (.cons ?_ (.cons ?_ (.cons ?_ (.cons ?_ (.cons ?_ (.cons ?_
    (.cons ?_ .nil)))))))) _ _
  · exact fits_text _ _
  · exact fits_text _ _
  · exact fits_of (reads_integer .signed64) _ _
  · exact fits_text _ _
  · exact fits_of (reads_orDefault (reads_list Choice.reads)) _ _
  · exact fits_of (reads_orDefault Usage.reads) _ _
  · exact fits_text _ _
  · exact fits_text _ _

theorem Reply.toOption_ofChars {body : List Char} {tree : Tree} (spells : Spells body tree) :
    (Reply.ofChars body).toOption = tree.reply? := by
  obtain ⟨rest, spaced, blank⟩ := spells
  have read := Reply.reads.complete spaced ((delimited_of_spaces blank).ends tree) spaced.length_le
  rw [ofChars, readWhole, toOption_bind, read]
  cases tree.reply? with
  | none => rfl
  | some reply => simp [skipSpaces_eq_nil_iff.mpr blank]

theorem Reply.spells_of_ofChars {body : List Char} {reply : Reply}
    (accepted : Reply.ofChars body = .ok reply) :
    ∃ tree, Spells body tree := by
  obtain ⟨⟨_, rest⟩, read, ended⟩ := bind_eq_ok_iff.mp accepted
  dsimp only at ended
  split at ended
  next blank =>
    obtain ⟨tree, spaced⟩ := Reply.reads.sound read
    exact ⟨tree, rest, spaced, skipSpaces_eq_nil_iff.mp blank⟩
  next => simp at ended

theorem Reply.ofChars_eq_ok_iff {body : List Char} {reply : Reply} :
    Reply.ofChars body = .ok reply ↔ ∃ tree, Spells body tree ∧ tree.reply? = some reply := by
  constructor
  · intro accepted
    obtain ⟨tree, spells⟩ := spells_of_ofChars accepted
    exact ⟨tree, spells, by rw [← toOption_ofChars spells, accepted, toOption_ok]⟩
  · rintro ⟨tree, spells, means⟩
    rwa [← toOption_ofChars spells, toOption_eq_some_iff] at means

theorem Reply.ofText_eq_ok_iff_ofChars {body : String} {reply : Reply} :
    Reply.ofText body = .ok reply ↔ Reply.ofChars body.toList = .ok reply := by
  rw [ofText]
  split <;> simp_all

theorem Reply.ofText_eq_ok_iff {body : String} {reply : Reply} :
    Reply.ofText body = .ok reply ↔ ∃ tree, Spells body.toList tree ∧ tree.reply? = some reply := by
  rw [ofText_eq_ok_iff_ofChars, ofChars_eq_ok_iff]

end Redline
