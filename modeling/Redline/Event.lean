/-! What a run tells about itself, for a log. -/

namespace Redline

inductive Event where
  | posting (endpoint : String) (bytes : Nat)
  | completed (id : String) (tokens : Nat)
  | applyingBlocks
  | readingKey (path : String)
  | running (command : List String)
  | complained (text : String)
  deriving DecidableEq, Repr

def Event.text : Event → String
  | .posting endpoint bytes => s!"POST {endpoint} ({bytes} bytes)"
  | .completed id tokens => s!"completion {id} used {tokens} tokens"
  | .applyingBlocks => "no prompt given, applying block commands"
  | .readingKey path => s!"reading API key from {path}"
  | .running command => "running " ++ " ".intercalate command
  | .complained text => s!"diff stderr: {text}"

def Event.record (event : Event) : String :=
  s!"DEBUG {event.text}"

end Redline
