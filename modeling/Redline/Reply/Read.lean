import Redline.Json.Typed
import Redline.Reply.Basic

/-! Reading the reply of a chat model. Fields that are not there have their defaults; so have those
that are null, where a table says so. Numbers and what is made of numbers may not be null. -/

namespace Redline

open Json

/-- How many brackets may be open at a time, the reply's own included. -/
def nestingLimit : Nat := 127

def Turn.fields : List (Json.Field Turn) :=
  [.of "role" (readOrDefault readText) fun turn role => { turn with role },
   .of "content" (readOrDefault readText) fun turn content => { turn with content },
   .of "refusal" (readOption readText) fun turn refusal => { turn with refusal }]

def Turn.read (limit : Nat) : Reader Turn :=
  readRecord "Message" limit Turn.fields {}

/-- The brackets of the reply, of the list of choices and of the choice are open around the
logarithms of probabilities, which can have any shape. -/
def Choice.fields (limit : Nat) : List (Json.Field Choice) :=
  [.of "index" readCount fun choice index => { choice with index },
   .of "message" (readOrDefault (Turn.read limit)) fun choice message => { choice with message },
   .of "logprobs" (readOption (readValue limit (nestingLimit - 3))) fun choice logprobs =>
     { choice with logprobs },
   .of "finish_reason" (readOrDefault readText) fun choice finishReason =>
     { choice with finishReason }]

def Choice.read (limit : Nat) : Reader Choice :=
  readRecord "Choice" limit (Choice.fields limit) {}

def PromptTokens.fields : List (Json.Field PromptTokens) :=
  [.of "cached_tokens" readCount fun tokens cached => { tokens with cached },
   .of "audio_tokens" readCount fun tokens audio => { tokens with audio }]

def PromptTokens.read (limit : Nat) : Reader PromptTokens :=
  readRecord "TokenDetails" limit PromptTokens.fields {}

def CompletionTokens.fields : List (Json.Field CompletionTokens) :=
  [.of "reasoning_tokens" readCount fun tokens reasoning => { tokens with reasoning },
   .of "audio_tokens" readCount fun tokens audio => { tokens with audio },
   .of "accepted_prediction_tokens" readCount fun tokens acceptedPrediction =>
     { tokens with acceptedPrediction },
   .of "rejected_prediction_tokens" readCount fun tokens rejectedPrediction =>
     { tokens with rejectedPrediction }]

def CompletionTokens.read (limit : Nat) : Reader CompletionTokens :=
  readRecord "CompletionTokenDetails" limit CompletionTokens.fields {}

def Usage.fields (limit : Nat) : List (Json.Field Usage) :=
  [.of "prompt_tokens" readCount fun usage prompt => { usage with prompt },
   .of "completion_tokens" readCount fun usage completion => { usage with completion },
   .of "total_tokens" readCount fun usage total => { usage with total },
   .of "prompt_tokens_details" (PromptTokens.read limit) fun usage promptDetails =>
     { usage with promptDetails },
   .of "completion_tokens_details" (CompletionTokens.read limit) fun usage completionDetails =>
     { usage with completionDetails }]

def Usage.read (limit : Nat) : Reader Usage :=
  readRecord "Usage" limit (Usage.fields limit) {}

def Reply.fields (limit : Nat) : List (Json.Field Reply) :=
  [.of "id" (readOrDefault readText) fun reply id => { reply with id },
   .of "object" (readOrDefault readText) fun reply object => { reply with object },
   .of "created" (readInteger .signed64) fun reply created => { reply with created },
   .of "model" (readOrDefault readText) fun reply model => { reply with model },
   .of "choices" (readOrDefault (readList limit (Choice.read limit))) fun reply choices =>
     { reply with choices },
   .of "usage" (readOrDefault (Usage.read limit)) fun reply usage => { reply with usage },
   .of "service_tier" (readOrDefault readText) fun reply serviceTier => { reply with serviceTier },
   .of "system_fingerprint" (readOrDefault readText) fun reply systemFingerprint =>
     { reply with systemFingerprint }]

def Reply.read (limit : Nat) : Reader Reply :=
  readRecord "Response" limit (Reply.fields limit) {}

def Reply.ofChars (body : List Char) : Except Fault Reply :=
  readWhole (Reply.read body.length) body

def Reply.ofText (body : String) : Except CompletionError Reply :=
  match Reply.ofChars body.toList with
  | .ok reply => .ok reply
  | .error fault => .error (.notParsed (fault.message body.toList))

end Redline
