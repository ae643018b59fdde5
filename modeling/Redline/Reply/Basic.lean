import Redline.Error
import Redline.Json.Value

/-! The reply of a chat model. -/

namespace Redline

structure Turn where
  role : String := ""
  content : String := ""
  refusal : Option String := none
  deriving Inhabited

structure Choice where
  index : Nat := 0
  message : Turn := {}
  logprobs : Option Json.Value := none
  finishReason : String := ""
  deriving Inhabited

structure PromptTokens where
  cached : Nat := 0
  audio : Nat := 0
  deriving Inhabited

structure CompletionTokens where
  reasoning : Nat := 0
  audio : Nat := 0
  acceptedPrediction : Nat := 0
  rejectedPrediction : Nat := 0
  deriving Inhabited

structure Usage where
  prompt : Nat := 0
  completion : Nat := 0
  total : Nat := 0
  promptDetails : PromptTokens := {}
  completionDetails : CompletionTokens := {}
  deriving Inhabited

structure Reply where
  id : String := ""
  object : String := ""
  created : Int := 0
  model : String := ""
  choices : List Choice := []
  usage : Usage := {}
  serviceTier : String := ""
  systemFingerprint : String := ""
  deriving Inhabited

def Reply.content (reply : Reply) : Except CompletionError String :=
  match reply.choices with
  | [] => .error .noChoices
  | choice :: _ => .ok choice.message.content

end Redline
