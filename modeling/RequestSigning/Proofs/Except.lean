set_option autoImplicit false

namespace RequestSigning

variable {ε δ α β : Type} {outcome : Except ε α}

theorem Except.map_eq_ok {f : α → β} {result : β} (success : outcome.map f = .ok result) :
    ∃ value, outcome = .ok value ∧ f value = result := by
  cases outcome with
  | error error => cases success
  | ok value =>
    cases success
    exact ⟨value, rfl, rfl⟩

theorem Except.mapError_eq_ok {f : ε → δ} {result : α} (success : outcome.mapError f = .ok result) :
    outcome = .ok result := by
  cases outcome with
  | error error => cases success
  | ok value =>
    cases success
    rfl

theorem Except.bind_eq_ok {f : α → Except ε β} {result : β} (success : outcome >>= f = .ok result) :
    ∃ value, outcome = .ok value ∧ f value = .ok result := by
  cases outcome with
  | error error => cases success
  | ok value => exact ⟨value, rfl, success⟩

/-- The error of an outcome that failed. -/
def faultOf : Except ε α → Option ε
  | .error error => some error
  | .ok _ => none

theorem eq_of_faultOf {outcome : Except ε Unit} {fault : Option ε} (same : faultOf outcome = fault) :
    outcome = fault.elim (.ok ()) .error := by
  subst same
  cases outcome <;> rfl

@[simp] theorem faultOf_map (outcome : Except ε α) (f : α → β) :
    faultOf (outcome.map f) = faultOf outcome := by
  cases outcome <;> rfl

end RequestSigning
