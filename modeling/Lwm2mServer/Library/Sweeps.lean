import Lwm2mServer.Library.Machine

/-! Things that a task looks through from time to time, and discards or renews
once they are due. If the looks are never more than a period apart, nothing is
ever overdue by a period. The machine keeps running in between, so the bound is
on every state it reaches and not only on the states after a look. -/
namespace Library

/-- A clock, the time of the last look, and for each thing that is there the
time from which a look does not leave it as it is. -/
structure Sweep (σ ι : Type) where
  clock : σ → Nat
  last : σ → Nat
  due : σ → ι → Option Nat

namespace Sweep
variable {σ ι : Type} (sweep : Sweep σ ι) {s next : σ} {i : ι} {t period : Nat}

/-- The last look, had it been the present one, would have left everything. -/
def Clean (s : σ) : Prop := ∀ i t, sweep.due s i = some t → sweep.last s < t

/-- The next look is not overdue. -/
def OnTime (period : Nat) (s : σ) : Prop := sweep.clock s ≤ sweep.last s + period

/-- What a step may do to the things. -/
inductive Keeps (s next : σ) : Prop where
  /-- A look: what is still there is not due. -/
  | look (now : sweep.last next = sweep.clock s)
      (left : ∀ i t, sweep.due next i = some t → sweep.clock s < t)
  /-- Any other step: what is there was there before and is not due earlier, or
  is not due yet. -/
  | other (same : sweep.last next = sweep.last s)
      (left : ∀ i t, sweep.due next i = some t →
        sweep.clock s < t ∨ ∃ before, sweep.due s i = some before ∧ before ≤ t)

variable {sweep}

theorem Clean.step (clean : sweep.Clean s) (past : sweep.last s ≤ sweep.clock s)
    (keeps : sweep.Keeps s next) : sweep.Clean next := by
  intro i t there
  cases keeps with
  | look now left =>
    rw [now]
    exact left i t there
  | other same left =>
    rw [same]
    rcases left i t there with later | ⟨before, old, order⟩
    · exact Nat.lt_of_le_of_lt past later
    · exact Nat.lt_of_lt_of_le (clean i before old) order

/-- Nothing is overdue by a period. -/
theorem Clean.within (clean : sweep.Clean s) (onTime : sweep.OnTime period s)
    (there : sweep.due s i = some t) : sweep.clock s < t + period := by
  have before := clean i t there
  unfold OnTime at onTime
  omega

theorem Keeps.past (keeps : sweep.Keeps s next) (past : sweep.last s ≤ sweep.clock s)
    (forward : sweep.clock s ≤ sweep.clock next) : sweep.last next ≤ sweep.clock next := by
  cases keeps with
  | look now => exact now ▸ forward
  | other same => exact same ▸ Nat.le_trans past forward

end Sweep

namespace Machine
variable {σ α ι : Type} {machine : Machine σ α} {guard : σ → α → Prop} {state : σ} {period : Nat}

/-- **Nothing stays overdue.** In a machine whose steps are looks or leave the
things alone, every thing in every state reached is due no more than a period
ago. -/
theorem Reaches.within (sweep : Sweep σ ι) (reached : machine.Reaches guard state)
    (initially : ∀ state, machine.start state →
      sweep.Clean state ∧ sweep.last state ≤ sweep.clock state ∧ sweep.OnTime period state)
    (kept : ∀ state action next, machine.Reaches guard state → guard state action →
      machine.step state action = some next → sweep.Keeps state next ∧
        sweep.clock state ≤ sweep.clock next ∧ (sweep.OnTime period state → sweep.OnTime period next)) :
    ∀ i t, sweep.due state i = some t → sweep.clock state < t + period := by
  have holds := reached.invariant
    (fun state => sweep.Clean state ∧ sweep.last state ≤ sweep.clock state ∧ sweep.OnTime period state)
    initially
    (fun state action next reached ⟨clean, past, onTime⟩ allowed ran => by
      obtain ⟨keeps, forward, timely⟩ := kept state action next reached allowed ran
      exact ⟨clean.step past keeps, keeps.past past forward, timely onTime⟩)
  exact fun i t there => holds.1.within holds.2.2 there

end Machine
end Library
