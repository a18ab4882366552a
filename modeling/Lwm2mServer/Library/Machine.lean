import Mathlib.Logic.Basic
import Mathlib.Data.List.Basic

/-! Machines that take one atomic step at a time, and the histories they
leave. A concurrent program is one such machine: an action names the task that
moves and whatever the environment decides for that step, so a list of actions
is one interleaving. Histories are kept newest first, which makes "what had
happened before this event" the tail at that event. -/
namespace Library

/-- A partial step function with its initial states. `none` means the action
is not enabled. -/
structure Machine (σ α : Type) where
  start : σ → Prop
  step : σ → α → Option σ

namespace Machine
variable {σ α : Type}

/-- The states of the runs all of whose steps meet `guard` in the state they
are taken from. -/
inductive Reaches (machine : Machine σ α) (guard : σ → α → Prop) : σ → Prop where
  | start (initial : machine.start state) : Reaches machine guard state
  | step (reached : Reaches machine guard state) (allowed : guard state action)
      (ran : machine.step state action = some next) : Reaches machine guard next

/-- No condition on the steps: every run. -/
def always : σ → α → Prop := fun _ _ => True

instance : ∀ (state : σ) (action : α), Decidable (always state action) :=
  fun _ _ => isTrue trivial

variable {machine : Machine σ α} {guard weaker : σ → α → Prop} {state next : σ}

theorem Reaches.weaken (reached : machine.Reaches guard state)
    (implied : ∀ state action, guard state action → weaker state action) :
    machine.Reaches weaker state := by
  induction reached with
  | start initial => exact .start initial
  | step _ allowed ran ih => exact .step ih (implied _ _ allowed) ran

theorem Reaches.unguarded (reached : machine.Reaches guard state) : machine.Reaches always state :=
  reached.weaken fun _ _ _ => trivial

/-- What holds initially and is kept by every allowed step from a reached
state holds in every state reached. -/
theorem Reaches.invariant (reached : machine.Reaches guard state) (holds : σ → Prop)
    (initially : ∀ state, machine.start state → holds state)
    (kept : ∀ state action next, machine.Reaches guard state → holds state →
      guard state action → machine.step state action = some next → holds next) : holds state := by
  induction reached with
  | start initial => exact initially _ initial
  | step before allowed ran ih => exact kept _ _ _ before ih allowed ran

/-- Run a list of actions, refusing the first one that is not enabled or does
not meet the guard. -/
def exec (machine : Machine σ α) (guard : σ → α → Prop)
    [∀ state action, Decidable (guard state action)] : σ → List α → Option σ
  | state, [] => some state
  | state, action :: rest =>
    if guard state action then (machine.step state action).bind (machine.exec guard · rest)
    else none

theorem reaches_of_exec [∀ state action, Decidable (guard state action)] {actions : List α}
    (reached : machine.Reaches guard state)
    (ran : machine.exec guard state actions = some next) : machine.Reaches guard next := by
  induction actions generalizing state with
  | nil =>
    cases ran
    exact reached
  | cons action rest ih =>
    simp only [exec] at ran
    split at ran
    · rename_i allowed
      obtain ⟨middle, stepped, rest⟩ := Option.bind_eq_some_iff.mp ran
      exact ih (.step reached allowed stepped) rest
    · cases ran

/-- A run that was executed and ended in a state with some property. -/
theorem exec_reaches (machine : Machine σ α) (guard : σ → α → Prop)
    [∀ state action, Decidable (guard state action)] (state : σ) (actions : List α)
    (check : σ → Bool) (initial : machine.start state)
    (ran : (machine.exec guard state actions).any check = true) :
    ∃ last, machine.exec guard state actions = some last ∧ machine.Reaches guard last ∧
      check last = true := by
  cases ended : machine.exec guard state actions with
  | none =>
    rw [ended] at ran
    cases ran
  | some last =>
    rw [ended] at ran
    exact ⟨last, rfl, reaches_of_exec (.start initial) ended, ran⟩

end Machine

section History
variable {ε : Type} {holds weaker : ε → List ε → Prop} {history : List ε}

/-- Every event of a history stands in the given relation to the events
before it. -/
def EveryEvent (holds : ε → List ε → Prop) : List ε → Prop
  | [] => True
  | event :: earlier => holds event earlier ∧ EveryEvent holds earlier

/-- The recursive form says what one expects of every split of the history. -/
theorem everyEvent_iff_splits :
    EveryEvent holds history ↔
      ∀ later event earlier, history = later ++ event :: earlier → holds event earlier := by
  induction history with
  | nil => simp [EveryEvent]
  | cons head tail ih =>
    simp only [EveryEvent, ih]
    constructor
    · rintro ⟨first, rest⟩ later event earlier split
      cases later with
      | nil =>
        simp only [List.nil_append, List.cons.injEq] at split
        obtain ⟨rfl, rfl⟩ := split
        exact first
      | cons _ later =>
        simp only [List.cons_append, List.cons.injEq] at split
        exact rest later event earlier split.2
    · intro every
      refine ⟨every [] head tail rfl, fun later event earlier split => ?_⟩
      exact every (head :: later) event earlier (by rw [split, List.cons_append])

theorem EveryEvent.mono (every : EveryEvent holds history)
    (implied : ∀ event earlier, holds event earlier → weaker event earlier) :
    EveryEvent weaker history := by
  induction history with
  | nil => trivial
  | cons event earlier ih => exact ⟨implied event earlier every.1, ih every.2⟩

/-- Events that need no justification may be added. -/
theorem EveryEvent.append {events : List ε} (every : EveryEvent holds history)
    (added : ∀ event ∈ events, ∀ earlier, holds event earlier) :
    EveryEvent holds (events ++ history) := by
  induction events with
  | nil => exact every
  | cons event rest ih =>
    refine ⟨added event List.mem_cons_self _, ih fun other member => ?_⟩
    exact added other (List.mem_cons_of_mem event member)

theorem EveryEvent.of_append {later : List ε} (every : EveryEvent holds (later ++ history)) :
    EveryEvent holds history := by
  induction later with
  | nil => exact every
  | cons event rest ih => exact ih every.2

theorem EveryEvent.of_mem (every : EveryEvent holds history) {event : ε} (member : event ∈ history) :
    ∃ earlier, holds event earlier ∧ ∀ other ∈ earlier, other ∈ history := by
  obtain ⟨later, earlier, split⟩ := List.append_of_mem member
  refine ⟨earlier, everyEvent_iff_splits.mp every later event earlier split, fun other held => ?_⟩
  rw [split]
  exact List.mem_append_right later (List.mem_cons_of_mem event held)

/-- Labels that do not occur among the last `width` events before do not repeat
within `width + 1` events. -/
theorem EveryEvent.nodup_stretch {κ : Type} {label : ε → κ} {width : Nat} {stretch : List ε}
    (apart : EveryEvent (fun event earlier => label event ∉ (earlier.take width).map label) history)
    (part : stretch <:+: history) (short : stretch.length ≤ width + 1) : (stretch.map label).Nodup := by
  obtain ⟨later, earlier, rfl⟩ := part
  rw [List.append_assoc] at apart
  replace apart := apart.of_append
  induction stretch with
  | nil => exact List.nodup_nil
  | cons event rest ih =>
    rw [List.length_cons] at short
    refine List.nodup_cons.mpr ⟨fun repeated => apart.1 ?_, ih (by omega) apart.2⟩
    obtain ⟨other, member, same⟩ := List.mem_map.mp repeated
    refine List.mem_map.mpr ⟨other, ?_, same⟩
    change other ∈ (rest ++ earlier).take width
    rw [List.take_append, List.take_of_length_le (by omega)]
    exact List.mem_append_left _ member

end History

/-! Values that a counter hands out: the `n`-th event that carries one carries
`value n`. While `value` does not repeat, no two such events carry the same. -/
section Numbering
variable {ε κ : Type} (issued : ε → Option κ) (value : Nat → κ)

/-- How many values a history has handed out. -/
def issues (history : List ε) : Nat := history.countP fun event => (issued event).isSome

/-- The values came from the counter in order. -/
def Numbered (history : List ε) : Prop :=
  EveryEvent (fun event earlier => ∀ k, issued event = some k → k = value (issues issued earlier))
    history

variable {issued value} {history : List ε} {event other : ε} {k : κ} {bound : Nat}

theorem issues_cons_none (none : issued event = none) :
    issues issued (event :: history) = issues issued history := by
  simp [issues, none]

theorem issues_cons_some (held : issued event = some k) :
    issues issued (event :: history) = issues issued history + 1 := by
  simp [issues, held]

theorem issues_append_none {events : List ε} (none : ∀ event ∈ events, issued event = none) :
    issues issued (events ++ history) = issues issued history := by
  induction events with
  | nil => rfl
  | cons event rest ih =>
    rw [List.cons_append, issues_cons_none (none event List.mem_cons_self)]
    exact ih fun other member => none other (List.mem_cons_of_mem event member)

theorem issues_le_append (events : List ε) :
    issues issued history ≤ issues issued (events ++ history) := by
  rw [issues, issues, List.countP_append]
  exact Nat.le_add_left _ _

theorem Numbered.append_none {events : List ε} (numbered : Numbered issued value history)
    (none : ∀ event ∈ events, issued event = none) : Numbered issued value (events ++ history) := by
  refine EveryEvent.append numbered fun event member earlier k held => ?_
  rw [none event member] at held
  cases held

/-- A value in the history is one the counter has already passed. -/
theorem Numbered.earlier (numbered : Numbered issued value history) (member : event ∈ history)
    (held : issued event = some k) : ∃ n, n < issues issued history ∧ k = value n := by
  induction history with
  | nil => cases member
  | cons head rest ih =>
    rcases List.mem_cons.mp member with rfl | old
    · refine ⟨issues issued rest, ?_, numbered.1 k held⟩
      rw [issues_cons_some held]
      exact Nat.lt_succ_self _
    · obtain ⟨n, below, same⟩ := ih numbered.2 old
      exact ⟨n, Nat.lt_of_lt_of_le below (issues_le_append [head]), same⟩

variable (distinct : ∀ first second, first < bound → second < bound → value first = value second →
  first = second)
include distinct

/-- The next value is not in the history. -/
theorem Numbered.fresh (numbered : Numbered issued value history)
    (few : issues issued history < bound) (member : event ∈ history) (held : issued event = some k) :
    k ≠ value (issues issued history) := by
  intro same
  obtain ⟨n, below, named⟩ := numbered.earlier member held
  have equal := distinct n _ (Nat.lt_trans below few) few (named.symm.trans same)
  exact Nat.lt_irrefl _ (equal ▸ below)

/-- An event is determined by the value it carries. -/
theorem Numbered.unique (numbered : Numbered issued value history)
    (few : issues issued history ≤ bound) (first : event ∈ history) (second : other ∈ history)
    (held : issued event = some k) (held' : issued other = some k) : event = other := by
  induction history with
  | nil => cases first
  | cons head rest ih =>
    have before : issues issued rest ≤ bound := Nat.le_trans (issues_le_append [head]) few
    have next {x y : ε} (top : x = head) (old : y ∈ rest) (hx : issued x = some k)
        (hy : issued y = some k) : False := by
      subst top
      rw [issues_cons_some hx] at few
      exact Numbered.fresh distinct numbered.2 few old hy (numbered.1 k hx)
    rcases List.mem_cons.mp first with top | old
    · rcases List.mem_cons.mp second with top' | old'
      · exact top.trans top'.symm
      · exact (next top old' held held').elim
    · rcases List.mem_cons.mp second with top' | old'
      · exact (next top' old held' held).elim
      · exact ih numbered.2 before old old'

end Numbering
end Library
