import Redline.Error
import Redline.Event
import Redline.Files.Path
import Redline.Text.Blank
import Redline.Text.Utf8

/-! The API key and the message, from flags or from where they are looked for without one. An
empty flag counts as none. -/

namespace Redline

structure Settings where
  key : String
  message : String
  deriving DecidableEq, Repr

structure Input where
  bytes : ByteArray := .empty
  failure : Option String := none

structure Home (m : Type → Type) where
  directory : Option String
  read : String → m (Except String ByteArray)

namespace Settings

def notText : String := "stream did not contain valid UTF-8"

def textOf (bytes : ByteArray) : Except String String :=
  (Text.decode bytes).mapError fun _ => notText

/-- The text of standard input. A failure to read comes before bytes that are no text. -/
def inputText (input : Input) : Except String String :=
  match input.failure with
  | some cause => .error cause
  | none => textOf input.bytes

def given (flag : Option String) : Option String :=
  flag.filter fun value => !value.isEmpty

variable {m : Type → Type} [Monad m]

def resolveMessage (flag : Option String) (input : m Input) : m (Except SettingsError String) := do
  match given flag with
  | some message => return .ok message
  | none => return (inputText (← input)).mapError .inputFailed

def homePath (home : Home m) (file : String) : Except SettingsError String :=
  match home.directory with
  | some directory => .ok (joinPath directory file)
  | none => .error .noHome

def readKey (note : Event → m Unit) (home : Home m) (path : String) :
    m (Except SettingsError String) := do
  note (.readingKey path)
  match (← home.read path) >>= textOf with
  | .ok text => return .ok (String.ofList (Text.trim text.toList))
  | .error cause => return .error (.keyFileFailed path cause)

def resolveKey (note : Event → m Unit) (home : Home m) (flag : Option String) (file : String) :
    m (Except SettingsError String) := do
  match given flag with
  | some key => return .ok key
  | none =>
    match homePath home file with
    | .ok path => readKey note home path
    | .error error => return .error error

/-- The settings of a key and a message, neither of which may be empty. The key is looked at
first. -/
def ofValues (key message : String) : Except SettingsError Settings :=
  if key.isEmpty then .error .missingKey
  else if message.isEmpty then .error .missingMessage
  else .ok ⟨key, message⟩

def resolve (note : Event → m Unit) (home : Home m) (input : m Input)
    (keyFlag messageFlag : Option String) (file : String) :
    m (Except SettingsError Settings) := do
  match ← resolveMessage messageFlag input with
  | .error error => return .error error
  | .ok message =>
    match ← resolveKey note home keyFlag file with
    | .error error => return .error error
    | .ok key => return ofValues key message

end Settings

end Redline
