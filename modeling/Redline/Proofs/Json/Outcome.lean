import Redline.Json.Scan

/-! What readers answer: a value, or a fault. Where only the value matters, an answer is taken as an
option, and reading one thing after another becomes binding options. -/

namespace Redline.Json

variable {α β : Type}

@[simp] theorem ok_bind (value : α) (next : α → Except Fault β) :
    ((.ok value : Except Fault α) >>= next) = next value :=
  rfl

@[simp] theorem faultHere_bind (cause : Cause) (rest : List Char) (next : α → Except Fault β) :
    (faultHere cause rest >>= next) = faultHere cause rest :=
  rfl

@[simp] theorem faultAtNext_bind (cause : Cause) (rest : List Char) (next : α → Except Fault β) :
    (faultAtNext cause rest >>= next) = faultAtNext cause rest :=
  rfl

@[simp] theorem error_bind (fault : Fault) (next : α → Except Fault β) :
    ((.error fault : Except Fault α) >>= next) = .error fault :=
  rfl

@[simp] theorem pure_eq_ok (value : α) : (pure value : Except Fault α) = .ok value :=
  rfl

theorem bind_eq_ok_iff {result : Except Fault α} {next : α → Except Fault β} {value : β} :
    (result >>= next) = .ok value ↔ ∃ mid, result = .ok mid ∧ next mid = .ok value := by
  constructor
  · intro same
    cases result with
    | error fault => cases same
    | ok mid => exact ⟨mid, rfl, same⟩
  · rintro ⟨mid, rfl, same⟩
    exact same

@[simp] theorem faultHere_ne_ok (cause : Cause) (rest : List Char) (value : α) :
    faultHere cause rest ≠ .ok value := by
  simp [faultHere]

@[simp] theorem faultAtNext_ne_ok (cause : Cause) (rest : List Char) (value : α) :
    faultAtNext cause rest ≠ .ok value := by
  simp [faultAtNext]

@[simp] theorem toOption_ok (value : α) : (.ok value : Except Fault α).toOption = some value :=
  rfl

@[simp] theorem toOption_faultHere (cause : Cause) (rest : List Char) :
    (faultHere cause rest : Except Fault α).toOption = none :=
  rfl

@[simp] theorem toOption_faultAtNext (cause : Cause) (rest : List Char) :
    (faultAtNext cause rest : Except Fault α).toOption = none :=
  rfl

@[simp] theorem toOption_bind (result : Except Fault α) (next : α → Except Fault β) :
    (result >>= next).toOption = result.toOption.bind fun value => (next value).toOption := by
  cases result <;> rfl

theorem toOption_eq_some_iff {result : Except Fault α} {value : α} :
    result.toOption = some value ↔ result = .ok value := by
  cases result <;> simp [Except.toOption]

end Redline.Json
