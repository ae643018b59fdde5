import Redline.Proofs.Reply.Meaning

/-! An accepted body is whole. What is cut off from it or put behind it is nothing but spaces, or
the body is not accepted any more. -/

namespace Redline

open Json

namespace Reply

variable {reply : Reply}

theorem ofChars_append {body extra : List Char} (accepted : ofChars body = .ok reply)
    (solid : ∃ c ∈ extra, isSpace c = false) : (ofChars (body ++ extra)).toOption = none := by
  obtain ⟨tree, ⟨rest, spaced, _⟩, means⟩ := ofChars_eq_ok_iff.mp accepted
  have longer := spaced.extend extra
  -- The bracket of a record ends it, so that nothing behind can go on with it, as digits with a number.
  have read := Reply.reads.complete longer (ends_of_record means _) longer.length_le
  rw [means, Option.map_some, toOption_eq_some_iff] at read
  have notBlank : skipSpaces (rest ++ extra) ≠ [] := by
    obtain ⟨c, member, notSpace⟩ := solid
    intro blank
    have := skipSpaces_eq_nil_iff.mp blank c (by simp [member])
    simp [notSpace] at this
  rw [ofChars, readWhole, read, ok_bind]
  dsimp only
  split
  next blank => exact absurd blank notBlank
  next => rfl

theorem notParsed_of_not_ok {body : String} (rejected : ∀ reply, ofText body ≠ .ok reply) :
    ∃ cause, ofText body = .error (.notParsed cause) := by
  revert rejected
  rw [ofText]
  split
  next reply _ => exact fun rejected => absurd rfl (rejected reply)
  next fault _ => exact fun _ => ⟨_, rfl⟩

theorem ofText_append {body extra : String} (accepted : ofText body = .ok reply)
    (solid : ∃ c ∈ extra.toList, isSpace c = false) :
    ∃ cause, ofText (body ++ extra) = .error (.notParsed cause) := by
  refine notParsed_of_not_ok fun reply' longer => ?_
  have rejected := ofChars_append (ofText_eq_ok_iff_ofChars.mp accepted) solid
  have accepted' := ofText_eq_ok_iff_ofChars.mp longer
  rw [String.toList_append] at accepted'
  simp [accepted'] at rejected

/-- Nothing but spaces can be cut off an accepted body or be put behind it. Without spaces at its
end, an accepted body has no other accepted one in front. -/
theorem ofText_whole {body : String} (accepted : ofText body = .ok reply) :
    (∀ front back : String, front ++ back = body → (∃ c ∈ back.toList, isSpace c = false) →
      ∃ cause, ofText front = .error (.notParsed cause)) ∧
    (∀ extra : String, (∃ c ∈ extra.toList, isSpace c = false) →
      ∃ cause, ofText (body ++ extra) = .error (.notParsed cause)) ∧
    ∀ (front : String) (other : Reply), ofText front = .ok other → front.toList <+: body.toList →
      (∀ c ∈ body.toList.getLast?, isSpace c = false) → front = body := by
  have cut (front back : String) (whole : front ++ back = body)
      (solid : ∃ c ∈ back.toList, isSpace c = false) :
      ∃ cause, ofText front = .error (.notParsed cause) := by
    refine notParsed_of_not_ok fun other acceptedFront => ?_
    obtain ⟨cause, rejected⟩ := ofText_append acceptedFront solid
    rw [whole, accepted] at rejected
    cases rejected
  refine ⟨cut, fun extra solid => ofText_append accepted solid, ?_⟩
  intro front other acceptedFront isFront ended
  obtain ⟨back, whole⟩ := isFront
  have joined : front ++ String.ofList back = body := by
    apply String.toList_injective
    simp [whole]
  cases last : back.getLast? with
  | none =>
      rw [List.getLast?_eq_none_iff] at last
      simpa [last] using joined
  | some c =>
      have isLast : c ∈ body.toList.getLast? := by
        rw [← whole, List.getLast?_append, last]
        rfl
      obtain ⟨cause, rejected⟩ := cut front (String.ofList back) joined
        ⟨c, by simpa using List.mem_of_getLast? last, ended c isLast⟩
      rw [acceptedFront] at rejected
      cases rejected

theorem ofText_whole_cutEscape : ofText "\x7b\"id\":\"\\u00e9\"\x7d" = .ok { id := "é" } ∧
    ∃ cause, ofText "\x7b\"id\":\"\\u00" = .error (.notParsed cause) := by
  have accepted : ofText "\x7b\"id\":\"\\u00e9\"\x7d" = .ok { id := "é" } := by rfl
  exact ⟨accepted, (ofText_whole accepted).1 "\x7b\"id\":\"\\u00" "e9\"\x7d" (by rfl)
    ⟨'e', by simp, by decide⟩⟩

end Reply

end Redline
