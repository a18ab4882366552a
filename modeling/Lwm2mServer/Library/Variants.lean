import Mathlib.Algebra.GroupWithZero.Nat
import Lwm2mServer.Library.Machine
import Lwm2mServer.Library.Tasks

/-! Work that ends. Each move of a worker uses up some of what it has left to
do, and what others do gives it only so much more; so over a stretch of a run
its moves are bounded, however the others take turns with it. -/
namespace Library
variable {σ α τ : Type}

namespace Machine

/-- A stretch of a run, by its actions. -/
inductive Path (machine : Machine σ α) (guard : σ → α → Prop) : σ → List α → σ → Prop where
  | nil : Path machine guard state [] state
  | cons (allowed : guard state action) (ran : machine.step state action = some next)
      (rest : Path machine guard next actions last) :
      Path machine guard state (action :: actions) last

/-- `left` is what a worker has left to do, `own` says which moves are its own
and `given` how much more it may be given by a move of another. -/
structure Variant (machine : Machine σ α) (own : α → Bool) (given : α → Nat) (left : σ → Nat) :
    Prop where
  lowers : ∀ state action next, own action = true → machine.step state action = some next →
    left next < left state
  others : ∀ state action next, own action = false → machine.step state action = some next →
    left next ≤ left state + given action

variable {machine : Machine σ α} {guard : σ → α → Prop} {first last : σ} {actions : List α}
  {own : α → Bool} {given : α → Nat} {left : σ → Nat}

theorem Path.reaches (path : machine.Path guard first actions last)
    (reached : machine.Reaches guard first) : machine.Reaches guard last := by
  induction path with
  | nil => exact reached
  | cons allowed ran _ ih => exact ih (.step reached allowed ran)

theorem path_of_exec [∀ state action, Decidable (guard state action)]
    (ran : machine.exec guard first actions = some last) : machine.Path guard first actions last := by
  induction actions generalizing first with
  | nil =>
    cases ran
    exact .nil
  | cons action rest ih =>
    simp only [exec] at ran
    split at ran
    · rename_i allowed
      obtain ⟨middle, stepped, rest⟩ := Option.bind_eq_some_iff.mp ran
      exact .cons allowed stepped (ih rest)
    · cases ran

/-- A worker makes no more moves than it has left at first and is given. -/
theorem Variant.bounds (variant : machine.Variant own given left)
    (path : machine.Path guard first actions last) :
    actions.countP own + left last ≤ left first + (actions.map given).sum := by
  induction path with
  | nil => simp
  | @cons state action next actions last allowed ran rest ih =>
    rw [List.countP_cons, List.map_cons, List.sum_cons]
    cases mine : own action with
    | true =>
      have lower := variant.lowers _ _ _ mine ran
      rw [if_pos rfl]
      omega
    | false =>
      have given := variant.others _ _ _ mine ran
      rw [if_neg Bool.false_ne_true]
      omega

end Machine

namespace Tasks

/-- What a task has left to do; a task that is yet to be spawned has everything
before it. -/
def left (rank : τ → Nat) (all : Nat) (tasks : Tasks τ) (id : Nat) : Nat :=
  ((tasks.get? id).map rank).getD all

variable {rank : τ → Nat} {all : Nat} {tasks : Tasks τ} {id other : Nat} {task changed : τ}

theorem left_spawn (full : rank task = all) : left rank all (tasks.spawn task) id = left rank all tasks id := by
  rw [left, left, get?_spawn]
  by_cases new : id = tasks.count
  · rw [if_pos new, new, get?_count, Option.map_some, full]
    rfl
  · rw [if_neg new]

theorem left_update_other (held : tasks.get? other = some task) (apart : id ≠ other) :
    left rank all (tasks.update other changed) id = left rank all tasks id := by
  rw [left, left, get?_update tasks held, if_neg apart]

theorem left_update_lt (held : tasks.get? id = some task) (lower : rank changed < rank task) :
    left rank all (tasks.update id changed) id < left rank all tasks id := by
  rw [left, left, get?_update tasks held, if_pos rfl, held]
  exact lower

end Tasks
end Library
