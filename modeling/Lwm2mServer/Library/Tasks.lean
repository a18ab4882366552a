import Mathlib.Logic.Function.Basic
import Mathlib.Data.List.Basic

/-! Two pieces of an asynchronous runtime: the one-shot channels tasks wait
on, and the tasks a program has spawned. Both hand out identities in order and
never reuse one, so a channel or a task can be named in a history. -/
namespace Library

/-- What a receiver sees: nothing yet, the value sent, or a sender that was
dropped without sending. -/
inductive Cell (α : Type) where
  | waiting
  | sent (value : α)
  | closed
  deriving DecidableEq, Repr

/-- One-shot channels by identity. -/
structure Oneshots (α : Type) where
  next : Nat := 0
  cell : Nat → Cell α := fun _ => .waiting

namespace Oneshots
variable {α : Type} (channels : Oneshots α)

/-- A fresh channel; its identity stands for both ends. -/
def channel : Nat × Oneshots α := (channels.next, { channels with next := channels.next + 1 })

/-- A channel is resolved once: the first outcome stays. -/
def resolve (id : Nat) (outcome : Cell α) : Oneshots α :=
  match channels.cell id with
  | .waiting => { channels with cell := Function.update channels.cell id outcome }
  | _ => channels

/-- The sender sends; a receiver that is gone makes no difference. -/
def send (id : Nat) (value : α) : Oneshots α := channels.resolve id (.sent value)

/-- The sender is dropped. -/
def drop (id : Nat) : Oneshots α := channels.resolve id .closed

@[simp] theorem resolve_next (id : Nat) (outcome : Cell α) :
    (channels.resolve id outcome).next = channels.next := by
  unfold resolve
  split <;> rfl

theorem resolve_cell_waiting {id : Nat} (waits : channels.cell id = .waiting) (outcome : Cell α)
    (probe : Nat) :
    (channels.resolve id outcome).cell probe =
      if probe = id then outcome else channels.cell probe := by
  simp [resolve, waits, Function.update_apply]

/-- Resolving a channel changes no other channel, and changes its own only
while nothing was sent on it. -/
theorem resolve_cell_cases (id : Nat) (outcome : Cell α) (probe : Nat) :
    (channels.resolve id outcome).cell probe = channels.cell probe ∨
      (probe = id ∧ channels.cell probe = .waiting ∧
        (channels.resolve id outcome).cell probe = outcome) := by
  cases held : channels.cell id with
  | waiting =>
    rw [resolve_cell_waiting channels held]
    by_cases same : probe = id
    · subst probe
      exact Or.inr ⟨rfl, held, if_pos rfl⟩
    · exact Or.inl (if_neg same)
  | sent value => exact Or.inl (by simp [resolve, held])
  | closed => exact Or.inl (by simp [resolve, held])

end Oneshots

/-- Spawned tasks, in the order they were spawned. A task that has ended keeps
its place in its last state. -/
structure Tasks (τ : Type) where
  all : List τ := []

namespace Tasks
variable {τ : Type} (tasks : Tasks τ)

def get? (id : Nat) : Option τ := tasks.all[id]?

/-- The identity the next task will have. -/
def count : Nat := tasks.all.length

def spawn (task : τ) : Tasks τ := ⟨tasks.all ++ [task]⟩

def update (id : Nat) (task : τ) : Tasks τ := ⟨tasks.all.set id task⟩

@[simp] theorem count_spawn (task : τ) : (tasks.spawn task).count = tasks.count + 1 := by
  simp [spawn, count]

@[simp] theorem count_update (id : Nat) (task : τ) : (tasks.update id task).count = tasks.count := by
  simp [update, count]

@[simp] theorem get?_empty (id : Nat) : ({} : Tasks τ).get? id = none := by
  simp [get?]

theorem lt_count {id : Nat} {task : τ} (held : tasks.get? id = some task) : id < tasks.count :=
  (List.getElem?_eq_some_iff.mp held).1

theorem exists_of_lt_count {id : Nat} (below : id < tasks.count) :
    ∃ task, tasks.get? id = some task :=
  ⟨_, List.getElem?_eq_getElem below⟩

theorem get?_count : tasks.get? tasks.count = none := by
  simp [get?, count]

theorem get?_spawn (task : τ) (probe : Nat) :
    (tasks.spawn task).get? probe = if probe = tasks.count then some task else tasks.get? probe := by
  by_cases same : probe = tasks.count
  · subst probe
    simp [get?, spawn, count]
  · rw [if_neg same]
    simp only [count] at same
    simp only [get?, spawn, List.getElem?_append]
    split
    · rfl
    · rw [List.getElem?_eq_none (by simp; omega), List.getElem?_eq_none (by omega)]

theorem get?_update {id : Nat} {old : τ} (held : tasks.get? id = some old) (task : τ) (probe : Nat) :
    (tasks.update id task).get? probe = if probe = id then some task else tasks.get? probe := by
  have bound : id < tasks.all.length := lt_count tasks held
  simp only [get?, update, List.getElem?_set, bound, if_true, eq_comm]

/-- An update that leaves an attribute of its task alone leaves it alone for
all tasks. -/
theorem map_update {α : Type} {id : Nat} {old task : τ} (held : tasks.get? id = some old)
    (label : τ → α) (same : label task = label old) :
    (tasks.update id task).all.map label = tasks.all.map label := by
  have at_ : (tasks.all.map label)[id]? = some (label old) := by
    rw [List.getElem?_map]
    exact congrArg (Option.map label) held
  obtain ⟨bound, value⟩ := List.getElem?_eq_some_iff.mp at_
  simp only [update, List.map_set, same]
  rw [← value]
  exact List.set_getElem_self bound

/-- Replacing a task changes a count by that task and the new one. -/
theorem countP_update {id : Nat} {old : τ} (held : tasks.get? id = some old) (new : τ)
    (counts : τ → Bool) :
    (tasks.update id new).all.countP counts + (counts old).toNat =
      tasks.all.countP counts + (counts new).toNat := by
  obtain ⟨bound, value⟩ := List.getElem?_eq_some_iff.mp held
  have parts : tasks.all = tasks.all.take id ++ old :: tasks.all.drop (id + 1) := by
    rw [← value, List.getElem_cons_drop, List.take_append_drop]
  have single (task : τ) (rest : List τ) :
      (task :: rest).countP counts = rest.countP counts + (counts task).toNat := by
    rw [List.countP_cons]
    cases counts task <;> rfl
  have before : tasks.all.countP counts = (tasks.all.take id).countP counts +
      ((tasks.all.drop (id + 1)).countP counts + (counts old).toNat) := by
    conv_lhs => rw [parts, List.countP_append, single]
  simp only [update]
  rw [List.set_eq_take_append_cons_drop, if_pos bound, List.countP_append, single, before]
  omega

end Tasks
end Library
