import Redline.Proofs.Json.Places
import Redline.Proofs.Reply.Nulls
import Redline.Proofs.Reply.Whole

/-! Values in their places in a body. -/

namespace Redline

open Json

variable {α : Type} {inner : Tree → Option α} {path : List Place}

theorem leads_choice {get : Choice → Option α} (index : Nat)
    (leads : Leads (Tree.record? Choice.slots {}) path inner get) :
    Leads Tree.reply? (.field RecordKind.reply.names "choices".toList :: .element index :: path) inner
      fun reply => reply.choices[index]?.bind get :=
  .field (.orDefault (.element leads index)) Reply.independent rfl (fun _ _ => rfl) _

/-- A body is accepted with every value that means something in its place, and with no other. -/
theorem Reply.ofText_of_leads {get : Reply → Option α} {context : Context} {old new : Tree}
    {before after : String} {reply : Reply}
    (leads : Leads Tree.reply? path inner get) (place : context.Follows path)
    (spellsOld : Spells before.toList (context.fill old)) (accepted : Reply.ofText before = .ok reply)
    (spellsNew : Spells after.toList (context.fill new)) :
    (∀ value, inner new = some value →
      ∃ reply', Reply.ofText after = .ok reply' ∧ get reply' = some value) ∧
    (inner new = none → ∃ cause, Reply.ofText after = .error (.notParsed cause)) := by
  rw [ofText_eq_ok_iff_ofChars, ← toOption_eq_some_iff, toOption_ofChars spellsOld] at accepted
  have found := leads.means place accepted new
  rw [← toOption_ofChars spellsNew] at found
  constructor
  · intro value means
    rw [means] at found
    obtain ⟨reply', isReply, same⟩ := Option.map_eq_some_iff.mp found
    exact ⟨reply', ofText_eq_ok_iff_ofChars.mpr (toOption_eq_some_iff.mp isReply), same⟩
  · intro meansNothing
    refine notParsed_of_not_ok fun reply' isReply => ?_
    rw [ofText_eq_ok_iff_ofChars.mp isReply, meansNothing] at found
    cases found

end Redline
