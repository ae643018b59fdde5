import Redline.Cli.Completion
import Redline.Cli.Invocation
import Redline.Cli.Manual
import Redline.Settings

/-! A whole run of a tool, from its arguments to its exit status. -/

namespace Redline

structure Surroundings (m : Type → Type) where
  input : m Input
  home : Home m
  send : Post → m (Except CompletionError String)
  compare : Differ → String → String → m (Except DiffError String)
  note : Event → m Unit
  write : String → m (Except String Unit)

inductive Exit where
  | done
  | failed (failure : Failure)
  | misused (misuse : Misuse)
  deriving DecidableEq, Repr

namespace Exit

def status : Exit → Nat
  | .done => 0
  | .failed _ => 1
  | .misused _ => 2

def complaint (tool : Tool) : Exit → String
  | .done => ""
  | .failed failure => tool.name ++ ": " ++ failure.message ++ "\n"
  | .misused misuse =>
    "error: " ++ misuse.message ++ "\n\n" ++ tool.usage ++
      "\n\nFor more information, try '--help'.\n"

end Exit

namespace Tool

variable {m : Type → Type} [Monad m]

def reviewed (tool : Tool) (around : Surroundings m) (invocation : Invocation) :
    m (Except Failure String) := do
  match ← Settings.resolve around.note around.home around.input invocation.key invocation.message
      tool.keyFile with
  | .error error => return .error (.settings error)
  | .ok settings =>
    let client : Client :=
      { key := settings.key, model := invocation.model, endpoint := invocation.endpoint }
    tool.run
      { complete := client.complete around.note around.send
        compare := around.compare invocation.engine
        note := around.note }
      settings.message

/-- The text that an invocation asks for. Completions come before the manual page, and both before
anything else. -/
def answer (tool : Tool) (around : Surroundings m) (invocation : Invocation) :
    m (Except Failure String) := do
  match invocation.completions with
  | some shell => return .ok (tool.completion shell)
  | none =>
    if invocation.man then return .ok tool.manual
    else return (← tool.reviewed around invocation).map fun text => text ++ "\n"

def execute (tool : Tool) (around : Surroundings m) (arguments : List String) : m Exit := do
  match Invocation.ofArguments arguments with
  | .error (.misuse misuse) => return .misused misuse
  | .error (.help detailed) =>
    let _ ← around.write (tool.help detailed)
    return .done
  | .error .version =>
    let _ ← around.write (tool.release ++ "\n")
    return .done
  | .ok invocation =>
    match ← tool.answer around invocation with
    | .error failure => return .failed failure
    | .ok text =>
      match ← around.write text with
      | .error cause => return .failed (.output cause)
      | .ok () => return .done

end Tool

end Redline
