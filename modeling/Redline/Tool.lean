import Redline.Block.Text
import Redline.Engine.Basic
import Redline.Event
import Redline.Message

/-! The two tools, and what they do with a message. -/

namespace Redline

inductive Tool where
  | withBlocks
  | promptOnly
  deriving DecidableEq, Repr

namespace Tool

def name : Tool → String
  | .withBlocks => "diffprompt"
  | .promptOnly => "orgprompt"

def keyFile (tool : Tool) : String :=
  "." ++ tool.name

def appliesBlocks : Tool → Bool
  | .withBlocks => true
  | .promptOnly => false

def about : Tool → String
  | .withBlocks =>
    "Rewrite text with a chat model and show the change as a diff, " ++
    "or apply embedded apply/reject blocks when no prompt is given"
  | .promptOnly => "Rewrite text with a chat model and show the change as a diff"

def version : String := "0.1.0"

end Tool

structure Services (m : Type → Type) where
  complete : String → m (Except CompletionError String)
  compare : String → String → m (Except DiffError String)
  note : Event → m Unit

namespace Tool

variable {m : Type → Type} [Monad m]

def review (services : Services m) (message : Message) : m (Except Failure String) := do
  match ← services.complete message.request with
  | .error error => return .error (.completion error)
  | .ok reply =>
    match ← services.compare message.input (reply ++ "\n") with
    | .error error => return .error (.diff error)
    | .ok raw => return .ok (Engine.shown raw)

/-- What a tool makes of a message. Without a prompt, the tool with blocks asks nobody. -/
def run (tool : Tool) (services : Services m) (text : String) : m (Except Failure String) := do
  let message := Message.ofText text
  if !message.hasPrompt && tool.appliesBlocks then
    services.note .applyingBlocks
    return .ok (Block.resolveText message.input)
  else review services message

end Tool

end Redline
