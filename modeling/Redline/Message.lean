import Redline.Text.Blank
import Redline.Text.Lines

/-! A user's message: a prompt, then a line holding only `vvv`, then the input that the prompt
is about. -/

namespace Redline

structure Message where
  prompt : String
  input : String
  deriving DecidableEq, Repr

namespace Message

def separator : List Char := ['v', 'v', 'v']

/-- The separator may have blanks around it, but nothing else. -/
def isSeparator (line : List Char) : Bool :=
  Text.trim line = separator

def reminder : String :=
  "Only write the code, without comments or explanations. Do not use markdown. " ++
  "Preserve indentation of the below input."

/-- Splits a message at its first separator line. Without one, all of it is input. -/
def ofText (text : String) : Message :=
  let lines := Text.splitLines text.toList
  match lines.dropWhile fun line => !isSeparator line with
  | [] => ⟨"", text⟩
  | _ :: below =>
    ⟨String.ofList (Text.joinLines (lines.takeWhile fun line => !isSeparator line)),
      String.ofList (Text.joinLines below)⟩

def hasPrompt (message : Message) : Bool :=
  !message.prompt.isEmpty

def request (message : Message) : String :=
  let body :=
    if message.hasPrompt then message.prompt ++ "\n\n" ++ message.input else message.input
  body ++ "\n\n" ++ reminder

end Message

end Redline
