import Redline.Cli.Execution
import Redline.Engine.Programs

/-! The program. Under the name `orgprompt` it is the tool that sends every message to the model,
under any other the one with blocks. -/

namespace Redline.Main

def toolOfName (name : Option String) : Tool :=
  if name = some Tool.promptOnly.name then .promptOnly else .withBlocks

def readInput : IO Input := do
  let input ← IO.getStdin
  match ← input.readBinToEnd.toBaseIO with
  | .ok bytes => return { bytes := bytes }
  | .error cause => return { failure := some (toString cause) }

def readFile (path : String) : IO (Except String ByteArray) := do
  match ← (IO.FS.readBinFile path).toBaseIO with
  | .ok bytes => return .ok bytes
  | .error cause => return .error (toString cause)

def writeOutput (text : String) : IO (Except String Unit) := do
  let output ← IO.getStdout
  let written : IO Unit := do
    output.putStr text
    output.flush
  match ← written.toBaseIO with
  | .ok () => return .ok ()
  | .error cause => return .error (toString cause)

/-- Nothing is sent: there is no connection to send it over. -/
def send (_ : Post) : IO (Except CompletionError String) :=
  return .error (.notSent "io: Connection refused (os error 111)")

def compare (differ : Differ) (before after : String) : IO (Except DiffError String) :=
  match differ with
  | .builtin => return Engine.builtin before after
  | .system => return ({} : External).engine Host.standard before after

def surroundings : IO (Surroundings IO) := do
  return {
    input := readInput
    home := { directory := ← IO.getEnv "HOME", read := readFile }
    send := send
    compare := compare
    note := fun _ => return ()
    write := writeOutput }

end Redline.Main

open Redline in
def main (arguments : List String) : IO UInt32 := do
  let tool := Main.toolOfName (← IO.appPath).fileName
  let exit ← tool.execute (← Main.surroundings) arguments
  (← IO.getStderr).putStr (exit.complaint tool)
  return UInt32.ofNat exit.status
