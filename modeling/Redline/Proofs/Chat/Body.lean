import Redline.Chat.Client
import Redline.Proofs.Json.Printed
import Redline.Proofs.Reply.Meaning

/-! The body of a request says what it is made from, whatever the message is, and a reply with the
same message says it back. -/

namespace Redline

open Json

def Json.Tree.SaysText (text : List Char) (tree : Tree) : Prop :=
  ∃ literal, tree = .string literal ∧ literal.decode = some text

def Json.Tree.HasMembers (members : List (String × (Tree → Prop))) (tree : Tree) : Prop :=
  ∃ listed, tree = .object listed ∧
    List.Forall₂ (fun (here : Literal × Tree) member =>
      here.1.decode = some member.1.toList ∧ member.2 here.2) listed members

namespace Client

def messageTree (role content : List Char) : Tree :=
  .object [(written "role".toList, .string (written role)),
    (written "content".toList, .string (written content)), (written "refusal".toList, .null)]

def requestTree (client : Client) (message : List Char) : Tree :=
  .object [(written "model".toList, .string (written (orElse client.model defaultModel))),
    (written "store".toList, .bool client.store),
    (written "messages".toList, .array [messageTree (orElse client.role defaultRole) message])]

def choiceTree (role content : List Char) : Tree :=
  .object [(written "message".toList, messageTree role content)]

def replyTree (role content : List Char) : Tree :=
  .object [(written "choices".toList, .array [choiceTree role content])]

theorem flatten_messageTree (role content : List Char) :
    (messageTree role content).tokens.flatten = messageObject role content := by
  simp [messageTree, messageObject, braced, member, commaSeparated, Tree.tokens, memberTokens, separated,
    token_written, printNull]

theorem flatten_requestTree (client : Client) (message : List Char) :
    (client.requestTree message).tokens.flatten = client.bodyChars message := by
  cases store : client.store <;>
    simp [requestTree, bodyChars, braced, member, commaSeparated, Tree.tokens, memberTokens,
      elementTokens, separated, token_written, printBool, store, flatten_messageTree]

theorem messageTree_turn (role content : List Char) : (messageTree role content).record? Turn.slots {} =
    some { role := String.ofList role, content := String.ofList content } := by
  simp [messageTree, Tree.record?, placed, decode_written, Turn.slots, Slot.of, orDefault?_of_ne_null,
    Tree.option?, Tree.text?]

theorem choiceTree_choice (role content : List Char) : (choiceTree role content).record? Choice.slots {} =
    some { message := { role := String.ofList role, content := String.ofList content } } := by
  have isMessage : (messageTree role content).orDefault? (Tree.record? Turn.slots {}) =
      some { role := String.ofList role, content := String.ofList content } := by
    rw [orDefault?_of_ne_null (by simp [messageTree]), messageTree_turn]
  simp [choiceTree, Tree.record?, placed, decode_written, Choice.slots, Slot.of, isMessage]

theorem replyTree_reply (role content : List Char) : (replyTree role content).reply? =
    some { choices :=
      [{ message := { role := String.ofList role, content := String.ofList content } }] } := by
  have isChoices :
      (Tree.array [choiceTree role content]).orDefault? (Tree.list? (Tree.record? Choice.slots {})) =
      some [{ message := { role := String.ofList role, content := String.ofList content } }] := by
    simp [orDefault?_of_ne_null, Tree.list?, choiceTree_choice]
  simp [replyTree, Tree.reply?, Tree.record?, placed, decode_written, Reply.slots, Slot.of, isChoices]

theorem spells_messageTree (role content : List Char) :
    Spells (messageObject role content) (messageTree role content) := by
  rw [← flatten_messageTree]
  exact Tree.spells _

theorem spells_requestTree (client : Client) (message : List Char) :
    Spells (client.bodyChars message) (client.requestTree message) := by
  rw [← flatten_requestTree]
  exact Tree.spells _

theorem spells_replyTree (role content : List Char) :
    Spells ("\x7b\"choices\":[\x7b\"message\":".toList ++ messageObject role content ++ "\x7d]\x7d".toList)
      (replyTree role content) := by
  have flat : (replyTree role content).tokens.flatten =
      "\x7b\"choices\":[\x7b\"message\":".toList ++ messageObject role content ++ "\x7d]\x7d".toList := by
    simp [replyTree, choiceTree, Tree.tokens, memberTokens, elementTokens, separated,
      flatten_messageTree, token_written, printString, printChar]
  rw [← flat]
  exact Tree.spells _

theorem bodyChars_eq (client : Client) : ∃ front, ∀ message, client.bodyChars message =
    front ++ (messageObject (orElse client.role defaultRole) message ++ [']', '}']) := by
  refine ⟨'{' :: (member "model" (printString (orElse client.model defaultModel)) ++
    ',' :: (member "store" (printBool client.store) ++ ',' :: member "messages" ['['])), ?_⟩
  intro message
  simp [bodyChars, braced, commaSeparated, member]

theorem messageObject_eq (role : List Char) : ∃ front back, ∀ content, messageObject role content =
    front ++ (printString content ++ back) := by
  refine ⟨'{' :: (member "role" (printString role) ++ ',' :: (printString "content".toList ++ [':'])),
    ',' :: (member "refusal" printNull ++ ['}']), fun content => ?_⟩
  simp [messageObject, braced, commaSeparated, member]

theorem body_injective (client : Client) : Function.Injective client.body := by
  intro first second same
  obtain ⟨front, body⟩ := client.bodyChars_eq
  obtain ⟨front', back, object⟩ := messageObject_eq (orElse client.role defaultRole)
  have chars : client.bodyChars first.toList = client.bodyChars second.toList :=
    String.ofList_injective same
  rw [body, body, object, object, List.append_right_inj, List.append_left_inj, List.append_right_inj,
    List.append_left_inj] at chars
  exact String.toList_injective (printString_injective chars)

/-- No control character of JSON is in the text. These are U+0000 to U+001F, the ones below the space; the
other control characters of Unicode may stand in JSON as they are. -/
def NoControl (text : List Char) : Prop :=
  ∀ c ∈ text, ' ' ≤ c

instance (text : List Char) : Decidable (NoControl text) :=
  List.decidableBAll (' ' ≤ ·) text

theorem noControl_printString (text : List Char) : NoControl (printString text) :=
  fun _ isPrinted => le_of_mem_printString isPrinted

theorem noControl_member (key : String) {value : List Char} (clean : NoControl value) :
    NoControl (member key value) :=
  List.forall_mem_append.mpr ⟨noControl_printString key.toList,
    List.forall_mem_cons.mpr ⟨by decide, clean⟩⟩

theorem noControl_commaSeparated {texts : List (List Char)} (clean : ∀ text ∈ texts, NoControl text) :
    NoControl (commaSeparated texts) := by
  fun_induction commaSeparated texts with
  | case1 => exact List.forall_mem_nil _
  | case2 text => exact clean text (by simp)
  | case3 text next texts ih =>
      have later : NoControl (commaSeparated (next :: texts)) :=
        ih fun other isLater => clean other (by simp [isLater])
      exact List.forall_mem_append.mpr ⟨clean text (by simp), List.forall_mem_cons.mpr ⟨by decide, later⟩⟩

theorem noControl_braced {members : List (List Char)} (clean : ∀ text ∈ members, NoControl text) :
    NoControl (braced members) :=
  List.forall_mem_cons.mpr ⟨by decide, List.forall_mem_append.mpr
    ⟨noControl_commaSeparated clean, List.forall_mem_singleton.mpr (by decide)⟩⟩

theorem noControl_messageObject (role content : List Char) : NoControl (messageObject role content) := by
  refine noControl_braced ?_
  simp only [List.forall_mem_cons]
  exact ⟨noControl_member _ (noControl_printString role),
    noControl_member _ (noControl_printString content), noControl_member _ (by decide),
    List.forall_mem_nil _⟩

theorem noControl_bodyChars (client : Client) (message : List Char) :
    NoControl (client.bodyChars message) := by
  have object := noControl_messageObject (orElse client.role defaultRole) message
  refine noControl_braced ?_
  simp only [List.forall_mem_cons]
  refine ⟨noControl_member _ (noControl_printString _), noControl_member _ ?_, noControl_member _ ?_,
    List.forall_mem_nil _⟩
  · cases client.store <;> decide
  · exact List.forall_mem_cons.mpr ⟨by decide, List.forall_mem_append.mpr
      ⟨object, List.forall_mem_singleton.mpr (by decide)⟩⟩

end Client

end Redline
