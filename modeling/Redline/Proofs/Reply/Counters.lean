import Redline.Proofs.Json.Integers
import Redline.Proofs.Reply.Places

/-! The counters of a body. Each holds the whole number that is written in its place, or the body is
refused: no number is rounded, wrapped around or cut to the range of its counter. -/

namespace Redline

open Json

inductive Counter where
  | created
  | index (choice : Nat)
  | prompt
  | completion
  | total
  | cached
  | promptAudio
  | reasoning
  | completionAudio
  | acceptedPrediction
  | rejectedPrediction

namespace Counter

open RecordKind in
def path : Counter → List Place
  | created => [.field reply.names "created".toList]
  | index place =>
    [.field reply.names "choices".toList, .element place, .field choice.names "index".toList]
  | prompt => inUsage [.field usage.names "prompt_tokens".toList]
  | completion => inUsage [.field usage.names "completion_tokens".toList]
  | total => inUsage [.field usage.names "total_tokens".toList]
  | cached => inPrompt "cached_tokens"
  | promptAudio => inPrompt "audio_tokens"
  | reasoning => inCompletion "reasoning_tokens"
  | completionAudio => inCompletion "audio_tokens"
  | acceptedPrediction => inCompletion "accepted_prediction_tokens"
  | rejectedPrediction => inCompletion "rejected_prediction_tokens"
where
  inUsage (path : List Place) : List Place :=
    .field reply.names "usage".toList :: path
  inPrompt (name : String) : List Place :=
    inUsage [.field usage.names "prompt_tokens_details".toList, .field promptTokens.names name.toList]
  inCompletion (name : String) : List Place :=
    inUsage [.field usage.names "completion_tokens_details".toList,
      .field completionTokens.names name.toList]

def value? (counter : Counter) (reply : Reply) : Option Int :=
  match counter with
  | created => some reply.created
  | index place => reply.choices[place]?.map fun choice => (choice.index : Int)
  | prompt => some reply.usage.prompt
  | completion => some reply.usage.completion
  | total => some reply.usage.total
  | cached => some reply.usage.promptDetails.cached
  | promptAudio => some reply.usage.promptDetails.audio
  | reasoning => some reply.usage.completionDetails.reasoning
  | completionAudio => some reply.usage.completionDetails.audio
  | acceptedPrediction => some reply.usage.completionDetails.acceptedPrediction
  | rejectedPrediction => some reply.usage.completionDetails.rejectedPrediction

def Holds (counter : Counter) (value : Int) : Prop :=
  match counter with
  | created => -2 ^ 63 ≤ value ∧ value < 2 ^ 63
  | _ => 0 ≤ value ∧ value < 2 ^ 32

def range : Counter → IntegerRange
  | created => .signed64
  | _ => .unsigned32

theorem holds_iff (counter : Counter) (value : Int) :
    counter.Holds value ↔ counter.range.least ≤ value ∧ value < counter.range.beyond := by
  cases counter <;> rfl

theorem range_bounds (counter : Counter) :
    -2 ^ 63 ≤ counter.range.least ∧ counter.range.beyond ≤ 2 ^ 64 := by
  have signed : -2 ^ 63 ≤ IntegerRange.signed64.least ∧ IntegerRange.signed64.beyond ≤ 2 ^ 64 := by decide
  have unsigned : -2 ^ 63 ≤ IntegerRange.unsigned32.least ∧ IntegerRange.unsigned32.beyond ≤ 2 ^ 64 := by
    decide
  cases counter with
  | created => exact signed
  | _ => exact unsigned

end Counter

section Paths

variable {α : Type} {inner : Tree → Option α} {path : List Place}

theorem leads_count : Leads Tree.count? [] (Tree.integer? .unsigned32) fun value => some (value : Int) := by
  refine .here fun tree => ?_
  rw [Tree.count?, Option.map_map]
  cases means : tree.integer? .unsigned32 with
  | none => rfl
  | some value =>
      have positive : 0 ≤ value := (Tree.integer?_within means).1
      simp [positive]

theorem leads_usage {get : Usage → Option α} {place : Place}
    (leads : Leads (Tree.record? Usage.slots {}) (place :: path) inner get) :
    Leads Tree.reply? (Counter.path.inUsage (place :: path)) inner fun reply => get reply.usage :=
  .field (.orDefault leads) Reply.independent rfl (fun _ _ => rfl) _

theorem leads_prompt {get : PromptTokens → Option α} {name : String}
    (leads : Leads (Tree.record? PromptTokens.slots {})
      [.field RecordKind.promptTokens.names name.toList] inner get) :
    Leads Tree.reply? (Counter.path.inPrompt name) inner fun reply => get reply.usage.promptDetails :=
  leads_usage (.field leads Usage.independent rfl (fun _ _ => rfl) _)

theorem leads_completion {get : CompletionTokens → Option α} {name : String}
    (leads : Leads (Tree.record? CompletionTokens.slots {})
      [.field RecordKind.completionTokens.names name.toList] inner get) :
    Leads Tree.reply? (Counter.path.inCompletion name) inner
      fun reply => get reply.usage.completionDetails :=
  leads_usage (.field leads Usage.independent rfl (fun _ _ => rfl) _)

theorem Counter.leads (counter : Counter) :
    Leads Tree.reply? counter.path (Tree.integer? counter.range) counter.value? := by
  cases counter with
  | created => exact .field (.here fun _ => rfl) Reply.independent rfl (fun _ _ => rfl) _
  | index choice =>
      have same : (index choice).value? = fun reply =>
          reply.choices[choice]?.bind fun choice => some (choice.index : Int) := by
        funext reply
        exact Option.map_eq_bind
      rw [same]
      exact leads_choice choice (.field leads_count Choice.independent rfl (fun _ _ => rfl) _)
  | prompt => exact leads_usage (.field leads_count Usage.independent rfl (fun _ _ => rfl) _)
  | completion => exact leads_usage (.field leads_count Usage.independent rfl (fun _ _ => rfl) _)
  | total => exact leads_usage (.field leads_count Usage.independent rfl (fun _ _ => rfl) _)
  | cached => exact leads_prompt (.field leads_count PromptTokens.independent rfl (fun _ _ => rfl) _)
  | promptAudio => exact leads_prompt (.field leads_count PromptTokens.independent rfl (fun _ _ => rfl) _)
  | reasoning =>
      exact leads_completion (.field leads_count CompletionTokens.independent rfl (fun _ _ => rfl) _)
  | completionAudio =>
      exact leads_completion (.field leads_count CompletionTokens.independent rfl (fun _ _ => rfl) _)
  | acceptedPrediction =>
      exact leads_completion (.field leads_count CompletionTokens.independent rfl (fun _ _ => rfl) _)
  | rejectedPrediction =>
      exact leads_completion (.field leads_count CompletionTokens.independent rfl (fun _ _ => rfl) _)

end Paths

/-- A counter of a body holds the integer that stands in its place, if that is within its range and is
no zero with a sign. With any other number there the body is refused. -/
theorem Reply.ofText_counter {counter : Counter} {context : Context} {old : Tree} {numeral : Numeral}
    {before after : String} {reply : Reply} (place : context.Follows counter.path)
    (spellsOld : Spells before.toList (context.fill old)) (accepted : Reply.ofText before = .ok reply)
    (spellsNew : Spells after.toList (context.fill (.number numeral))) :
    (numeral.IsWhole ∧ numeral.token ≠ "-0".toList ∧ counter.Holds numeral.signed →
      ∃ reply', Reply.ofText after = .ok reply' ∧ counter.value? reply' = some numeral.signed) ∧
    (¬ (numeral.IsWhole ∧ numeral.token ≠ "-0".toList ∧ counter.Holds numeral.signed) →
      ∃ cause, Reply.ofText after = .error (.notParsed cause)) := by
  obtain ⟨accepts, refuses⟩ := ofText_of_leads counter.leads place spellsOld accepted spellsNew
  obtain ⟨least, beyond⟩ := counter.range_bounds
  have read (value : Int) : (Tree.number numeral).integer? counter.range = some value ↔
      (numeral.IsWhole ∧ numeral.token ≠ "-0".toList ∧ counter.Holds numeral.signed) ∧
        numeral.signed = value := by
    rw [counter.holds_iff]
    exact Tree.integer?_number least beyond
  constructor
  · intro within
    exact accepts _ ((read _).mpr ⟨within, rfl⟩)
  · intro outside
    refine refuses (Option.eq_none_iff_forall_ne_some.mpr fun value means => ?_)
    exact outside ((read value).mp means).1

theorem Reply.ofText_counter_least : ∃ (context : Context) (old : Tree) (numeral : Numeral),
    context.Follows Counter.created.path ∧
    Spells "\x7b\"created\":0\x7d".toList (context.fill old) ∧
    Reply.ofText "\x7b\"created\":0\x7d" = .ok {} ∧
    Spells "\x7b\"created\":-9223372036854775808\x7d".toList (context.fill (.number numeral)) ∧
    numeral.IsWhole ∧ numeral.token ≠ "-0".toList ∧ Counter.created.Holds numeral.signed ∧
    ∃ reply, Reply.ofText "\x7b\"created\":-9223372036854775808\x7d" = .ok reply ∧
      reply.created = -9223372036854775808 := by
  let context : Context := [.member [] (written "created".toList) []]
  let old : Tree := .number ⟨false, ⟨['0'], by decide, List.all_eq_true.mp rfl⟩, none, none, by decide⟩
  let least : Numeral :=
    ⟨true, ⟨"9223372036854775808".toList, by decide, List.all_eq_true.mp rfl⟩, none, none, by decide⟩
  have place : context.Follows Counter.created.path := .cons (decode_written _) .nil
  have spellsOld : Spells "\x7b\"created\":0\x7d".toList (context.fill old) := (context.fill old).spells
  have spellsNew : Spells "\x7b\"created\":-9223372036854775808\x7d".toList
      (context.fill (.number least)) := (context.fill (.number least)).spells
  have accepted : Reply.ofText "\x7b\"created\":0\x7d" = .ok {} := by rfl
  have whole : least.IsWhole := ⟨rfl, rfl⟩
  have notZero : least.token ≠ "-0".toList := by decide
  have signed : least.signed = -9223372036854775808 := by rfl
  have holds : Counter.created.Holds least.signed := by
    rw [signed]
    exact ⟨by decide, by decide⟩
  obtain ⟨reply, isReply, value⟩ :=
    (Reply.ofText_counter place spellsOld accepted spellsNew).1 ⟨whole, notZero, holds⟩
  refine ⟨context, old, least, place, spellsOld, accepted, spellsNew, whole, notZero, holds, reply,
    isReply, ?_⟩
  exact (Option.some.inj value).trans signed

end Redline
