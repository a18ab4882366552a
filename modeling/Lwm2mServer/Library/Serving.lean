import Mathlib.Data.List.Forall2

/-! A server that takes requests one after another. What it received and what
it handed out are two lists, the newest first; a request may be passed over
unless it is owed an answer. -/
namespace Library
variable {ρ α : Type}

/-- The answers are those of some of the requests, in their order, and no
request that is owed one was passed over. -/
inductive Settled (answers : ρ → α → Prop) (owed : ρ → Bool) : List ρ → List α → Prop where
  | nil : Settled answers owed [] []
  | answered (meets : answers request answer) (earlier : Settled answers owed requests handed) :
      Settled answers owed (request :: requests) (answer :: handed)
  | passed (free : owed request = false) (earlier : Settled answers owed requests handed) :
      Settled answers owed (request :: requests) handed

namespace Settled
variable {answers weaker : ρ → α → Prop} {owed : ρ → Bool} {requests : List ρ} {handed : List α}

theorem mono (settled : Settled answers owed requests handed)
    (implied : ∀ request answer, answers request answer → weaker request answer) :
    Settled weaker owed requests handed := by
  induction settled with
  | nil => exact .nil
  | answered meets _ ih => exact .answered (implied _ _ meets) ih
  | passed free _ ih => exact .passed free ih

/-- The requests that were answered, and among them every one that was owed it. -/
theorem chosen (settled : Settled answers owed requests handed) :
    ∃ chosen, chosen.Sublist requests ∧ List.Forall₂ answers chosen handed ∧
      (requests.filter owed).Sublist chosen := by
  induction settled with
  | nil => exact ⟨[], .slnil, .nil, .slnil⟩
  | @answered request answer requests handed meets _ ih =>
    obtain ⟨chosen, among, each, all⟩ := ih
    refine ⟨request :: chosen, among.cons_cons request, .cons meets each, ?_⟩
    rw [List.filter_cons]
    split
    · exact all.cons_cons request
    · exact all.cons request
  | @passed request requests handed free _ ih =>
    obtain ⟨chosen, among, each, all⟩ := ih
    refine ⟨chosen, among.cons request, each, ?_⟩
    rw [List.filter_cons, free]
    exact all

end Settled

end Library
