import Redline.Chat.Endpoint
import Redline.Event
import Redline.Json.Print
import Redline.Reply.Read
import Redline.Text.Blank

/-! Sending a message to a chat model. What can be refused is refused before anything is sent. -/

namespace Redline

namespace Client

def defaultModel : String := "gpt-4o-mini"

def defaultRole : String := "user"

def defaultEndpoint : String := "https://api.openai.com/v1/chat/completions"

end Client

structure Client where
  key : String
  model : String := Client.defaultModel
  role : String := Client.defaultRole
  store : Bool := false
  endpoint : String := Client.defaultEndpoint

structure Post where
  endpoint : Endpoint
  headers : List (String × String)
  body : String

namespace Client

open Json

def orElse (text fallback : String) : List Char :=
  if text.isEmpty then fallback.toList else text.toList

def member (key : String) (value : List Char) : List Char :=
  printString key.toList ++ ':' :: value

def braced (members : List (List Char)) : List Char :=
  '{' :: commaSeparated members ++ ['}']

def messageObject (role content : List Char) : List Char :=
  braced [member "role" (printString role), member "content" (printString content),
    member "refusal" printNull]

def bodyChars (client : Client) (message : List Char) : List Char :=
  braced [member "model" (printString (orElse client.model defaultModel)),
    member "store" (printBool client.store),
    member "messages" ('[' :: messageObject (orElse client.role defaultRole) message ++ [']'])]

def body (client : Client) (message : String) : String :=
  String.ofList (client.bodyChars message.toList)

def hasBlankKey (client : Client) : Bool :=
  (Text.trim client.key.toList).isEmpty

def isHeaderChar (c : Char) : Bool :=
  (' ' ≤ c && c ≠ '\x7f') || c = '\t'

/-- The request with a body, or why it cannot be sent: the endpoint is no address, the key fits
into no header, or the address is none that requests go to. -/
def post (client : Client) (body : String) : Except CompletionError Post := do
  let endpoint ← match Endpoint.ofChars client.endpoint.toList with
    | .ok endpoint => pure endpoint
    | .error fault => throw (.notSent s!"http: {fault.message}")
  if !client.key.toList.all isHeaderChar then throw (.notSent "http: failed to parse header value")
  match endpoint.refusal with
  | some cause => throw (.notSent cause)
  | none =>
    return { endpoint := endpoint
             headers := [("Content-Type", "application/json"), ("Authorization", s!"Bearer {client.key}")]
             body := body }

def complete {m : Type → Type} [Monad m] (client : Client) (note : Event → m Unit)
    (send : Post → m (Except CompletionError String)) (message : String) :
    m (Except CompletionError String) := do
  if client.hasBlankKey then return .error .blankKey
  let body := client.body message
  note (.posting client.endpoint body.utf8ByteSize)
  match client.post body with
  | .error error => return .error error
  | .ok post =>
    match ← send post with
    | .error error => return .error error
    | .ok text =>
      match Reply.ofText text with
      | .error error => return .error error
      | .ok reply =>
        note (.completed reply.id reply.usage.total)
        return reply.content

end Client

end Redline
