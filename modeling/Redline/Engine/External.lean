import Redline.Engine.Basic
import Redline.Event
import Redline.Files.Path
import Redline.Text.Utf8

/-! An engine that hands both texts to another program, as two temporary files. Whatever
happens, the files are gone when it is done. -/

namespace Redline

abbrev Directory := List (String × ByteArray)

inductive Role where
  | input
  | result
  deriving DecidableEq, Repr

def Role.name : Role → String
  | .input => "input"
  | .result => "result"

namespace Directory

def has (files : Directory) (name : String) : Bool :=
  files.any fun file => file.1 = name

def remove (files : Directory) (name : String) : Directory :=
  files.filter fun file => file.1 ≠ name

def firstNumber : Nat := 100000

/-- A name for a role that no file has. One of the first numbers is free, since there are more of
them than files. -/
def freshName (files : Directory) (role : Role) : String :=
  let numbered (n : Nat) : String := s!"{role.name}-{firstNumber + n}"
  numbered (((List.range (files.length + 1)).find? fun n => !files.has (numbered n)).getD 0)

end Directory

inductive Ending where
  | exited (status : Int)
  | killed
  deriving DecidableEq, Repr

structure Launch where
  program : String
  arguments : List String
  path : String
  files : Directory

def Launch.command (launch : Launch) : List String :=
  launch.program :: launch.arguments

inductive Step where
  | creating
  | writing
  | closing
  deriving DecidableEq, Repr

structure Host where
  temporary : String
  refuses : (path : String) → Step → Option String
  name : Directory → Role → String := Directory.freshName
  start : Launch → Except String (Ending × ByteArray)
  complaint : Launch → ByteArray := fun _ => .empty

structure Outcome where
  answer : Except DiffError String
  files : Directory
  launch : Option Launch

def Step.name : Step → String
  | .creating => "creating"
  | .writing => "writing"
  | .closing => "closing"

structure External where
  program : String := "diff"
  directory : Option String := none

namespace External

def step (role : Role) (step : Step) : String :=
  s!"{step.name} {role.name} file"

/-- Prepares a temporary file, and answers with its name. A file that cannot be finished is
removed again. -/
def place (host : Host) (path : String) (role : Role) (text : String) (files : Directory) :
    Except DiffError String × Directory :=
  let failed (here : Step) (cause : String) : Except DiffError String :=
    .error (.tempFileFailed (External.step role here) cause)
  let name := host.name files role
  let file := joinPath path name
  match host.refuses file .creating with
  | some cause => (failed .creating cause, files)
  | none =>
    match host.refuses file .writing, host.refuses file .closing with
    | some cause, _ => (failed .writing cause, (files ++ [(name, ByteArray.empty)]).remove name)
    | none, some cause => (failed .closing cause, (files ++ [(name, text.toUTF8)]).remove name)
    | none, none => (.ok name, files ++ [(name, text.toUTF8)])

def answer (program : String) : Except String (Ending × ByteArray) → Except DiffError String
  | .error cause => .error (.notStarted program cause)
  | .ok (.killed, _) => .error (.noStatus program)
  | .ok (.exited status, output) =>
    if status = 0 ∨ status = 1 then
      match Text.decode output with
      | .ok text => .ok text
      | .error fault => .error (.notText fault.message)
    else .error (.failed program status)

/-- What a log tells of a program. Nothing else depends on what it wrote to standard error. -/
def events (host : Host) (launch : Launch) : List Event :=
  let complaint := host.complaint launch
  let complained : List Event :=
    match host.start launch with
    | .error _ => []
    | .ok _ => if complaint.isEmpty then [] else [.complained (Text.lossy complaint)]
  .running launch.command :: complained

def run (engine : External) (host : Host) (files : Directory) (before after : String) : Outcome :=
  let path := engine.directory.getD host.temporary
  match place host path .input before files with
  | (.error error, left) => ⟨.error error, left, none⟩
  | (.ok input, withInput) =>
    match place host path .result after withInput with
    | (.error error, left) => ⟨.error error, left.remove input, none⟩
    | (.ok result, withBoth) =>
      let launch : Launch :=
        { program := engine.program
          arguments := [s!"-U{Engine.context}", joinPath path input, joinPath path result]
          path := path
          files := withBoth }
      ⟨answer engine.program (host.start launch), (withBoth.remove result).remove input, some launch⟩

def engine (external : External) (host : Host) : Engine := fun before after =>
  (external.run host [] before after).answer

end External

end Redline
