import Redline.Cli.Misuse

/-! The command line of a tool. Arguments are read from left to right, and the first that stops
the reading, a request for help or a fault, decides. The value of a flag is looked at only when the
next flag or the end is reached. -/

namespace Redline

structure Invocation where
  key : Option String := none
  message : Option String := none
  model : String := Client.defaultModel
  endpoint : String := Client.defaultEndpoint
  engine : Differ := .system
  completions : Option Shell := none
  man : Bool := false
  deriving DecidableEq, Repr

inductive Stop where
  | misuse (misuse : Misuse)
  | help (detailed : Bool)
  | version
  deriving DecidableEq, Repr

inductive Argument where
  | hyphens
  | flag (flag : Flag) (named : Bool) (attached : Option String)
  | unknown (text : String)
  | plain (text : String)
  deriving DecidableEq, Repr

/-- The form of an argument. Letters can be joined behind one hyphen; the first decides. -/
def Argument.ofText (text : String) : Argument :=
  match text.toList with
  | ['-', '-'] => .hyphens
  | '-' :: '-' :: rest =>
    let name := String.ofList (rest.takeWhile fun c => c ≠ '=')
    match Flag.ofName? name, rest.dropWhile fun c => c ≠ '=' with
    | some found, [] => .flag found true none
    | some found, _ :: value => .flag found true (some (String.ofList value))
    | none, _ => .unknown ("--" ++ name)
  | '-' :: letter :: _ =>
    match Flag.ofLetter? letter with
    | some found => .flag found false none
    | none => .unknown ("-" ++ letter.toString)
  | _ => .plain text

structure Reading where
  given : List (Flag × String) := []
  pending : Option (Flag × Option String) := none

namespace Reading

def has (reading : Reading) (flag : Flag) : Bool :=
  reading.given.any fun entry => entry.1 = flag

def value? (reading : Reading) (flag : Flag) : Option String :=
  (reading.given.find? fun entry => entry.1 = flag).map Prod.snd

/-- Takes a flag with its value. Where only some values are possible, the empty one is as good as
none. -/
def accept (reading : Reading) (flag : Flag) (value : String) : Except Misuse Reading :=
  if reading.has flag then .error (.repeated flag)
  else
    match flag.choices? with
    | some choices =>
      if value.isEmpty then .error (.valueMissing flag)
      else if choices.contains value then
        .ok { reading with given := reading.given ++ [(flag, value)] }
      else .error (.valueRefused flag value)
    | none => .ok { reading with given := reading.given ++ [(flag, value)] }

def settle (reading : Reading) : Except Misuse Reading :=
  match reading.pending with
  | none => .ok reading
  | some (flag, none) => .error (.valueMissing flag)
  | some (flag, some value) => { reading with pending := none }.accept flag value

/-- Reads a flag. One that tolerates no value says so before anything pending is looked at. -/
def takeFlag (reading : Reading) (flag : Flag) (named : Bool) (attached : Option String) :
    Except Stop Reading :=
  match flag.takesValue, attached with
  | true, none => do
    let reading ← reading.settle.mapError .misuse
    return { reading with pending := some (flag, none) }
  | true, some value => (reading.settle >>= fun reading => reading.accept flag value).mapError .misuse
  | false, some value => .error (.misuse (.valueUnexpected flag value))
  | false, none => do
    let reading ← reading.settle.mapError .misuse
    match flag with
    | .help => .error (.help named)
    | .version => .error .version
    | _ => (reading.accept flag "").mapError .misuse

def takeAll (reading : Reading) : List String → Except Stop Reading
  | [] => reading.settle.mapError .misuse
  | text :: rest =>
    match Argument.ofText text with
    | .hyphens =>
      match rest with
      | [] => reading.settle.mapError .misuse
      | behind :: _ => .error (.misuse (.unexpected behind))
    | .flag flag named attached => do
      let reading ← reading.takeFlag flag named attached
      reading.takeAll rest
    | .unknown shown => .error (.misuse (.unexpected shown))
    | .plain text =>
      match reading.pending with
      | some (flag, none) => { reading with pending := some (flag, some text) }.takeAll rest
      | _ => .error (.misuse (.unexpected text))

def conflict? (reading : Reading) : Option Flag :=
  if reading.given.length ≤ 1 then none
  else (reading.given.map Prod.fst).find? Flag.isExclusive

def invocation (reading : Reading) : Invocation where
  key := reading.value? .key
  message := reading.value? .message
  model := (reading.value? .model).getD Client.defaultModel
  endpoint := (reading.value? .endpoint).getD Client.defaultEndpoint
  engine := ((reading.value? .engine).bind Differ.ofName?).getD .system
  completions := (reading.value? .completions).bind Shell.ofName?
  man := reading.has .man

end Reading

def Invocation.ofArguments (arguments : List String) : Except Stop Invocation := do
  let reading ← Reading.takeAll {} arguments
  match reading.conflict? with
  | some flag => throw (.misuse (.notAlone flag))
  | none => return reading.invocation

end Redline
