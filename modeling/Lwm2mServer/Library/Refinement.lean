import Mathlib.Logic.Basic

/-! Systems that are called and answer. What a call does and answers need not be
determined by the state, so that an abstract system may leave a choice open. A
system refines another if a call on it can be matched by one on the other; its
transcripts are then transcripts of the other. -/
namespace Library

structure Service (σ α β : Type) where
  start : σ → Prop
  step : σ → α → β → σ → Prop

namespace Service
variable {σ τ α β : Type}

/-- What was called and answered, the latest call first, and the state reached. -/
inductive Transcript (service : Service σ α β) : List (α × β) → σ → Prop where
  | start (initial : service.start state) : Transcript service [] state
  | call (before : Transcript service calls state) (ran : service.step state call answer next) :
      Transcript service ((call, answer) :: calls) next

/-- A state of one system stands for a state of the other, and goes on doing so. -/
structure Refines (service : Service σ α β) (spec : Service τ α β) (stands : σ → τ → Prop) :
    Prop where
  starts : ∀ state, service.start state → ∃ ideal, spec.start ideal ∧ stands state ideal
  steps : ∀ state ideal call answer next, stands state ideal → service.step state call answer next →
    ∃ ideal', spec.step ideal call answer ideal' ∧ stands next ideal'

variable {service : Service σ α β} {spec : Service τ α β} {stands : σ → τ → Prop}
  {calls : List (α × β)} {state : σ}

theorem Refines.transcript (refines : service.Refines spec stands)
    (told : service.Transcript calls state) : ∃ ideal, spec.Transcript calls ideal ∧ stands state ideal := by
  induction told with
  | start initial =>
    obtain ⟨ideal, starts, stand⟩ := refines.starts _ initial
    exact ⟨ideal, .start starts, stand⟩
  | call _ ran ih =>
    obtain ⟨ideal, told, stand⟩ := ih
    obtain ⟨ideal', stepped, stand'⟩ := refines.steps _ _ _ _ _ stand ran
    exact ⟨ideal', .call told stepped, stand'⟩

end Service
end Library
