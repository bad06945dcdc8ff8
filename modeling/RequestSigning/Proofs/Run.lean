import Mathlib
set_option autoImplicit false

namespace RequestSigning

section run

variable {ε σ : Type} {step : σ → ε → Option σ} {state next : σ}

theorem exists_of_foldlM_cons {event : ε} {events : List ε}
    (run : (event :: events).foldlM step state = some next) :
    ∃ middle, step state event = some middle ∧ events.foldlM step middle = some next := by
  rw [List.foldlM_cons] at run
  exact Option.bind_eq_some_iff.mp run

theorem exists_of_foldlM_append {events more : List ε}
    (run : (events ++ more).foldlM step state = some next) :
    ∃ middle, events.foldlM step state = some middle ∧ more.foldlM step middle = some next := by
  rw [List.foldlM_append] at run
  exact Option.bind_eq_some_iff.mp run

/-- What every step preserves, told of all that has happened, holds after every run. -/
theorem holds_of_foldlM (Holds : List ε → σ → Prop)
    (keeps : ∀ {earlier : List ε} {before after : σ} {event : ε}, Holds earlier before →
      step before event = some after → Holds (earlier ++ [event]) after)
    (earlier : List ε) {events : List ε} (holds : Holds earlier state)
    (run : events.foldlM step state = some next) : Holds (earlier ++ events) next := by
  -- The steps behind are generalized, so that each step moves one event from ahead to there.
  induction events generalizing earlier state with
  | nil =>
    cases run
    rw [List.append_nil]
    exact holds
  | cons event events ih =>
    obtain ⟨middle, moved, rest⟩ := exists_of_foldlM_cons run
    rw [List.append_cons]
    exact ih (earlier ++ [event]) (keeps holds moved) rest

end run

end RequestSigning
