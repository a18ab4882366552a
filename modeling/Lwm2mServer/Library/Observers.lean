import Lwm2mServer.Library.Machine

/-! A machine with an observer beside it. The observer writes down what a step
shows of itself, the newest first, and changes nothing, so that a property can
speak of what happened where the state keeps no trace of it. -/
namespace Library.Machine
variable {σ α β : Type}

def observed (machine : Machine σ α) (first : σ → List β) (shows : σ → α → σ → List β) :
    Machine (σ × List β) α where
  start seen := machine.start seen.1 ∧ seen.2 = first seen.1
  step seen action := (machine.step seen.1 action).map fun next =>
    (next, shows seen.1 action next ++ seen.2)

variable {machine : Machine σ α} {guard : σ → α → Prop} {first : σ → List β}
  {shows : σ → α → σ → List β} {seen next : σ × List β} {action : α}

theorem observed_step (ran : (machine.observed first shows).step seen action = some next) :
    machine.step seen.1 action = some next.1 ∧ next.2 = shows seen.1 action next.1 ++ seen.2 := by
  obtain ⟨after, stepped, rfl⟩ := Option.map_eq_some_iff.mp ran
  exact ⟨stepped, rfl⟩

/-- The machine runs as it does on its own. -/
theorem Reaches.unobserved
    (reached : (machine.observed first shows).Reaches (fun seen action => guard seen.1 action) seen) :
    machine.Reaches guard seen.1 := by
  induction reached with
  | start initial => exact .start initial.1
  | step _ allowed ran ih => exact .step ih allowed (observed_step ran).1

end Library.Machine
