import Redline.Chat.Client
import Redline.Cli.Choice

/-! The flags of the command line, the same for both tools. -/

namespace Redline

inductive Flag where
  | key
  | message
  | model
  | endpoint
  | engine
  | completions
  | man
  | help
  | version
  deriving DecidableEq, Repr

namespace Flag

def all : List Flag :=
  [.key, .message, .model, .endpoint, .engine, .completions, .man, .help, .version]

def name : Flag → String
  | .key => "api-key"
  | .message => "message"
  | .model => "model"
  | .endpoint => "endpoint"
  | .engine => "engine"
  | .completions => "completions"
  | .man => "man"
  | .help => "help"
  | .version => "version"

def letter? : Flag → Option Char
  | .help => some 'h'
  | .version => some 'V'
  | _ => none

def valueName? : Flag → Option String
  | .key => some "API_KEY"
  | .message => some "MESSAGE"
  | .model => some "MODEL"
  | .endpoint => some "ENDPOINT"
  | .engine => some "ENGINE"
  | .completions => some "SHELL"
  | .man | .help | .version => none

def takesValue (flag : Flag) : Bool :=
  flag.valueName?.isSome

def choices? : Flag → Option (List String)
  | .engine => some (Differ.all.map Differ.name)
  | .completions => some (Shell.all.map Shell.name)
  | _ => none

def meanings : Flag → List (String × String)
  | .engine => Differ.all.map fun differ => (differ.name, differ.about)
  | _ => []

def default? : Flag → Option String
  | .model => some Client.defaultModel
  | .endpoint => some Client.defaultEndpoint
  | .engine => some Differ.system.name
  | _ => none

def isExclusive : Flag → Bool
  | .completions | .man => true
  | _ => false

def about : Flag → String
  | .key => "API key for authentication (defaults to the contents of ~/.<tool>)"
  | .message => "Message to complete (defaults to standard input)"
  | .model => "Chat model used for completion"
  | .endpoint => "Chat completions endpoint"
  | .engine => "Diff engine used to render the change"
  | .completions => "Print shell completions and exit"
  | .man => "Print a man page and exit"
  | .help => "Print help"
  | .version => "Print version"

def details? : Flag → Option String
  | .message =>
    some ("Put the instruction first, then a line holding only `vvv`, then the text to " ++
      "rewrite.")
  | _ => none

def typed (flag : Flag) : String :=
  "--" ++ flag.name

def label (flag : Flag) : String :=
  match flag.valueName? with
  | some value => flag.typed ++ " <" ++ value ++ ">"
  | none => flag.typed

def ofName? (name : String) : Option Flag :=
  all.find? fun flag => flag.name = name

def ofLetter? (letter : Char) : Option Flag :=
  all.find? fun flag => flag.letter? = some letter

end Flag

end Redline
