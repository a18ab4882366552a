import Lwm2mServer.Consent

/-! Approvals that arrive while a write phase is in progress.

The includable id of a device stays valid until its write phase has ended, and
nothing records that a phase is running. An approval given in that time waits
in the approved set for the next POST /bs: it starts a second phase beside the
first, or after the first has ended, without the user being asked again. As
long as no approval comes in that time, neither happens. -/
namespace Lwm2mServer.Reapproval
open Library Consent

/-- A write phase for the endpoint is in progress: its approval is consumed
and `bootstrap_write_phase` has not returned. -/
def inProgress (c : Core) (endpoint : String) : Bool :=
  starting c.recv = some endpoint ||
    c.phases.all.any fun task => task.endpoint = endpoint && task.pc.Running

/-- `approve_inclusion` does not return an endpoint whose write phase is in
progress. -/
def ApprovesIdle (c : Core) : Action → Bool
  | .includeDevice id =>
    match c.boot.includableById.lookup id with
    | some endpoint => !inProgress c endpoint
    | none => true
  | _ => true

/-- Some write phase of the endpoint has not returned. -/
def RunsFor (c : Core) (endpoint : String) : Prop :=
  ∃ i task, c.phases.get? i = some task ∧ task.endpoint = endpoint ∧ task.pc.Running

theorem inProgress_iff {c : Core} {endpoint : String} :
    inProgress c endpoint ↔ starting c.recv = some endpoint ∨ RunsFor c endpoint := by
  simp only [inProgress, RunsFor, Bool.or_eq_true, decide_eq_true_eq, List.any_eq_true,
    Bool.and_eq_true, Tasks.get?, List.mem_iff_getElem?]
  constructor
  · rintro (position | ⟨task, ⟨i, held⟩, named, running⟩)
    · exact Or.inl position
    · exact Or.inr ⟨i, task, held, named, running⟩
  · rintro (position | ⟨i, task, held, named, running⟩)
    · exact Or.inl position
    · exact Or.inr ⟨task, ⟨i, held⟩, named, running⟩

variable {env : Env} {c next : Core} {action : Action}

/-- A phase that runs after a step ran before it, or was spawned by it. -/
theorem running_before (moved : Transition env c action next) {j : Nat} {task : WritePhase}
    (held : next.phases.get? j = some task) (running : task.pc.Running) :
    (∃ old, c.phases.get? j = some old ∧ old.endpoint = task.endpoint ∧ old.pc.Running) ∨
    (j = c.phases.count ∧ starting c.recv = some task.endpoint ∧ starting next.recv = none) := by
  rcases phase_cases moved with ⟨phases, -⟩ | ⟨endpoint, packet, addr, serverUri, position, rfl⟩ |
    ⟨i, choice, old, outcome, -, found, move, rfl⟩
  · rw [phases] at held
    exact Or.inl ⟨task, held, rfl, running⟩
  · rw [Tasks.get?_spawn] at held
    split at held
    · rename_i fresh
      cases held
      exact Or.inr ⟨fresh, by rw [position]; rfl, rfl⟩
    · exact Or.inl ⟨task, held, rfl, running⟩
  · rw [Tasks.get?_update _ found] at held
    split at held
    · rename_i own
      cases held
      subst own
      refine Or.inl ⟨old, found, rfl, ?_⟩
      rcases move.progress with ⟨before, -⟩ | ⟨before, -⟩ | ⟨before, -⟩ | ⟨-, goes, -⟩ |
        ⟨success, -, goes, -⟩ | ⟨-, goes, -⟩
      · exact before
      · exact before
      · exact before
      · rw [goes] at running
        cases running
      · rw [goes] at running
        cases success <;> cases running
      · rw [goes] at running
        cases running
    · exact Or.inl ⟨task, held, rfl, running⟩

/-- A phase that ends in a step was running before it. -/
theorem ended_running (moved : Transition env c action next) :
    ∃ events, next.log = events ++ c.log ∧
      ∀ i endpoint r, .ended i endpoint r ∈ events → RunsFor c endpoint := by
  rcases phase_cases moved with ⟨-, events, log, foreign⟩ |
    ⟨endpoint, packet, addr, serverUri, position, rfl⟩ | ⟨i, choice, task, outcome, -, held, move, rfl⟩
  · refine ⟨events, log, fun i endpoint r member => ?_⟩
    cases foreign _ member
  · refine ⟨[_], rfl, fun i endpoint r member => ?_⟩
    cases List.mem_singleton.mp member
  · refine ⟨outcome.events, rfl, fun j endpoint r member => ?_⟩
    rcases move.progress with ⟨-, -, plain⟩ | ⟨running, -, e, rest, events, plain⟩ |
      ⟨running, -, events⟩ | ⟨-, -, events⟩ | ⟨success, -, -, events⟩ | ⟨-, -, events⟩
    · cases plain _ member
    · rw [events] at member
      rcases List.mem_cons.mp member with same | member
      · cases same
        exact ⟨i, task, held, rfl, running⟩
      · cases plain _ member
    · rw [events] at member
      cases List.mem_singleton.mp member
      exact ⟨i, task, held, rfl, running⟩
    · rw [events] at member
      cases List.mem_singleton.mp member
    · rw [events] at member
      cases member
    · rw [events] at member
      cases List.mem_singleton.mp member

/-! ## One write phase at a time -/

/-- Nothing that could start a second phase for an endpoint is around while
one is in progress. -/
structure Exclusive (c : Core) : Prop where
  single : ∀ i j first second, c.phases.get? i = some first → c.phases.get? j = some second →
    first.endpoint = second.endpoint → first.pc.Running → second.pc.Running → i = j
  withheld : ∀ endpoint, inProgress c endpoint → endpoint ∉ c.boot.approved
  alone : ∀ endpoint, starting c.recv = some endpoint → ¬ RunsFor c endpoint

theorem exclusive_initial (initial : c.Initial) : Exclusive c := by
  obtain ⟨seed, serverUri, included, rfl⟩ := initial
  constructor
  · intro i j first second held
    cases (Tasks.get?_empty i).symm.trans held
  · intro endpoint progress
    cases progress
  · intro endpoint position
    cases position

/-- An endpoint in progress after a step was so before, or its approval has
just been consumed. -/
private theorem inProgress_before (covered : Covered c) (moved : Transition env c action next)
    {endpoint : String} (progress : inProgress next endpoint) :
    inProgress c endpoint ∨
      (endpoint ∈ c.boot.approved ∧ next.boot.approved = c.boot.approved.erase endpoint) := by
  rcases inProgress_iff.mp progress with position | ⟨j, task, held, rfl, running⟩
  · rcases consent_cases moved with ⟨-, recv, -⟩ | ⟨other, packet, addr, -, rfl⟩ |
      ⟨other, packet, addr, before, rfl⟩ | ⟨other, packet, addr, serverUri, -, rfl⟩ |
      ⟨id, other, -, -, rfl⟩
    · rcases recv with same | ⟨-, none⟩
      · rw [same] at position
        exact Or.inl (inProgress_iff.mpr (Or.inl position))
      · rw [none] at position
        cases position
    · cases position
    · cases position
      exact Or.inr ⟨covered.pending endpoint (by rw [before]; rfl), rfl⟩
    · cases position
    · exact Or.inl (inProgress_iff.mpr (Or.inl position))
  · rcases running_before moved held running with ⟨old, found, named, ran⟩ | ⟨-, position, -⟩
    · exact Or.inl (inProgress_iff.mpr (Or.inr ⟨j, old, found, named, ran⟩))
    · exact Or.inl (inProgress_iff.mpr (Or.inl position))

theorem exclusive_step (covered : Covered c) (exclusive : Exclusive c)
    (idle : ApprovesIdle c action) (moved : Transition env c action next) : Exclusive next := by
  constructor
  · intro i j first second held held' named running running'
    rcases running_before moved held running with ⟨old, found, same, ran⟩ | ⟨fresh, position, -⟩
    · rcases running_before moved held' running' with ⟨old', found', same', ran'⟩ |
        ⟨fresh', position', -⟩
      · exact exclusive.single i j old old' found found' (same.trans (named.trans same'.symm)) ran ran'
      · exact absurd ⟨i, old, found, same.trans named, ran⟩ (exclusive.alone _ position')
    · rcases running_before moved held' running' with ⟨old', found', same', ran'⟩ | ⟨fresh', -, -⟩
      · exact absurd ⟨j, old', found', same'.trans named.symm, ran'⟩ (exclusive.alone _ position)
      · rw [fresh, fresh']
  · intro endpoint progress approved
    rcases inProgress_before covered moved progress with before | ⟨-, erased⟩
    · have withheld := exclusive.withheld endpoint before
      rcases consent_cases moved with ⟨same, -⟩ | ⟨other, packet, addr, -, rfl⟩ |
        ⟨other, packet, addr, -, rfl⟩ | ⟨other, packet, addr, serverUri, -, rfl⟩ |
        ⟨id, other, rfl, assigned, rfl⟩
      · rw [same] at approved
        exact withheld approved
      · exact withheld approved
      · exact withheld (Finset.mem_of_mem_erase approved)
      · exact withheld approved
      · rcases Finset.mem_insert.mp approved with rfl | old
        · simp only [ApprovesIdle, assigned, before] at idle
          cases idle
        · exact withheld old
    · rw [erased] at approved
      exact Finset.notMem_erase endpoint _ approved
  · rintro endpoint position ⟨j, task, held, rfl, running⟩
    rcases running_before moved held running with ⟨old, found, named, ran⟩ | ⟨-, -, none⟩
    · have before : RunsFor c task.endpoint := ⟨j, old, found, named, ran⟩
      have withheld := exclusive.withheld _ (inProgress_iff.mpr (Or.inr before))
      rcases consent_cases moved with ⟨-, recv, -⟩ | ⟨other, packet, addr, -, rfl⟩ |
        ⟨other, packet, addr, consumed, rfl⟩ | ⟨other, packet, addr, serverUri, -, rfl⟩ |
        ⟨id, other, -, -, rfl⟩
      · rcases recv with same | ⟨-, none⟩
        · rw [same] at position
          exact exclusive.alone _ position before
        · rw [none] at position
          cases position
      · cases position
      · have named : other = task.endpoint := Option.some.inj position
        exact withheld (covered.pending _ (by rw [consumed, ← named]; rfl))
      · cases position
      · exact exclusive.alone _ position before
    · rw [none] at position
      cases position

theorem reached_exclusive {s : Server}
    (reached : (serverMachine env).Reaches (fun s action => ApprovesIdle s.core action) s) :
    Covered s.core ∧ Exclusive s.core := by
  refine core_invariant (fun c action => ApprovesIdle c action)
    (fun c => Covered c ∧ Exclusive c) reached ?_ ?_
  · exact fun c initial => ⟨covered_initial initial, exclusive_initial initial⟩
  · intro c action next ⟨covered, exclusive⟩ idle moved
    exact ⟨covered_step covered moved, exclusive_step covered exclusive idle moved⟩

/-- No two write phases of one endpoint are in progress together. -/
def AtMostOne (s : Server) : Prop :=
  ∀ i j first second, s.phases.get? i = some first → s.phases.get? j = some second →
    first.endpoint = second.endpoint → first.pc.Running → second.pc.Running → i = j

/-- **One write phase per endpoint at a time**, in every run in which no
approval is given for an endpoint whose write phase is in progress. -/
theorem one_phase_at_a_time {s : Server}
    (reached : (serverMachine env).Reaches (fun s action => ApprovesIdle s.core action) s) :
    AtMostOne s :=
  (reached_exclusive reached).2.single

/-- A device is included, bootstraps again, is approved again and starts its
second write phase. -/
def includeTwice : List Action :=
  Peer.approach "mower" Peer.genuine ++ Peer.provision (.response .changed) ++ Peer.advance 0 3 ++
    Peer.deliver (Peer.post "bs" "mower") 4 ++
    .includeDevice 2 :: Peer.deliver (Peer.post "bs" "mower") 5

theorem one_phase_at_a_time_when_included_twice :
    ∃ s, (serverMachine Peer.env).exec (fun s action => ApprovesIdle s.core action)
        Peer.server includeTwice = some s ∧ s.phases.count = 2 ∧ AtMostOne s := by
  obtain ⟨s, ran, reached, ends⟩ := (serverMachine Peer.env).exec_reaches
    (fun s action => ApprovesIdle s.core action) Peer.server includeTwice
    (fun s => decide (s.phases.count = 2)) ⟨_, _, _, _, _, rfl⟩ (by decide +kernel)
  exact ⟨s, ran, of_decide_eq_true ends, one_phase_at_a_time reached⟩

/-- The user approves once more while the write phase runs, and the device
repeats its POST /bs. -/
def approveWhileRunning : List Action :=
  Peer.approach "mower" Peer.genuine ++
    .includeDevice 1 :: Peer.deliver (Peer.post "bs" "mower") 5

/-- Two write phases of the device are then in progress. -/
theorem two_phases_in_progress :
    ∃ s, (serverMachine Peer.env).exec Machine.always Peer.server approveWhileRunning = some s ∧
      ¬ AtMostOne s := by
  obtain ⟨s, ran, -, ends⟩ := (serverMachine Peer.env).exec_reaches Machine.always Peer.server
    approveWhileRunning
    (fun s => (s.phases.get? 0).any fun first => (s.phases.get? 1).any fun second =>
      first.endpoint = second.endpoint && first.pc.Running && second.pc.Running)
    ⟨_, _, _, _, _, rfl⟩ (by decide +kernel)
  refine ⟨s, ran, fun single => ?_⟩
  simp only [Option.any_eq_true, Bool.and_eq_true, decide_eq_true_eq] at ends
  obtain ⟨first, held, second, held', ⟨same, running⟩, running'⟩ := ends
  cases single 0 1 first second held held' same running running'

/-! ## Approval after every end -/

/-- Since the last end of a write phase for the endpoint, `approve_inclusion`
has returned it. -/
def ApprovedSince (endpoint : String) (log : List Event) : Prop :=
  ∀ newer i r older, log = newer ++ .ended i endpoint r :: older →
    ∃ id, .approved id endpoint ∈ newer

/-- The same, read off the history from its newest event on. -/
def approvedSince (endpoint : String) : List Event → Bool
  | [] => true
  | .ended _ other _ :: earlier => other ≠ endpoint && approvedSince endpoint earlier
  | .approved _ other :: earlier => other = endpoint || approvedSince endpoint earlier
  | _ :: earlier => approvedSince endpoint earlier

private theorem approvedSince_of_splits {endpoint : String} {log : List Event}
    (splits : ApprovedSince endpoint log) : approvedSince endpoint log := by
  induction log with
  | nil => rfl
  | cons head rest ih =>
    have earlier (other : ∀ id, head ≠ .approved id endpoint) : approvedSince endpoint rest := by
      refine ih fun newer i r older split => ?_
      obtain ⟨id, member⟩ := splits (head :: newer) i r older (by rw [split, List.cons_append])
      rcases List.mem_cons.mp member with same | member
      · exact absurd same.symm (other id)
      · exact ⟨id, member⟩
    cases head with
    | ended i other r =>
      have different : other ≠ endpoint := by
        rintro rfl
        obtain ⟨id, member⟩ := splits [] i r rest rfl
        cases member
      simp [approvedSince, different, earlier nofun]
    | approved id other =>
      by_cases same : other = endpoint
      · simp [approvedSince, same]
      · have rest := earlier fun id' equal => by
          cases equal
          exact same rfl
        simp [approvedSince, rest]
    | _ => exact earlier nofun

private theorem splits_of_approvedSince {endpoint : String} {log : List Event}
    (since : approvedSince endpoint log) : ApprovedSince endpoint log := by
  intro newer i r older split
  induction newer generalizing log with
  | nil =>
    subst split
    simp [approvedSince] at since
  | cons head newer ih =>
    subst split
    have deeper (since : approvedSince endpoint (newer ++ .ended i endpoint r :: older)) :
        ∃ id, .approved id endpoint ∈ head :: newer := by
      obtain ⟨id, member⟩ := ih since rfl
      exact ⟨id, List.mem_cons_of_mem head member⟩
    cases head with
    | ended j other r' =>
      simp only [List.cons_append, approvedSince, Bool.and_eq_true] at since
      exact deeper since.2
    | approved id other =>
      by_cases same : other = endpoint
      · subst same
        exact ⟨id, List.mem_cons_self⟩
      · simp only [List.cons_append, approvedSince, same, decide_false, Bool.false_or] at since
        exact deeper since
    | _ => exact deeper since

theorem approvedSince_iff {endpoint : String} {log : List Event} :
    approvedSince endpoint log ↔ ApprovedSince endpoint log :=
  ⟨splits_of_approvedSince, approvedSince_of_splits⟩

private theorem approvedSince_append {endpoint : String} {events log : List Event}
    (running : ∀ i r, .ended i endpoint r ∉ events) (since : approvedSince endpoint log) :
    approvedSince endpoint (events ++ log) := by
  induction events with
  | nil => exact since
  | cons head rest ih =>
    have later := ih fun i r member => running i r (List.mem_cons_of_mem head member)
    cases head with
    | ended i other r =>
      have different : other ≠ endpoint := by
        rintro rfl
        exact running i r List.mem_cons_self
      simp [approvedSince, different, later]
    | approved id other => simp [approvedSince, later]
    | _ => exact later

/-- A write phase starts only on an approval given after the last one ended. -/
def StartReapproved (event : Event) (earlier : List Event) : Prop :=
  ∀ i endpoint, event = .started i endpoint → ApprovedSince endpoint earlier

/-- An approval that can still start a phase is younger than the last end. -/
structure Reapproved (c : Core) : Prop where
  usable : ∀ endpoint, endpoint ∈ c.boot.approved ∨ consuming c.recv = some endpoint ∨
    starting c.recv = some endpoint → approvedSince endpoint c.log
  starts : EveryEvent StartReapproved c.log

theorem reapproved_initial (initial : c.Initial) : Reapproved c := by
  obtain ⟨seed, serverUri, included, rfl⟩ := initial
  exact ⟨fun endpoint _ => rfl, nofun, trivial⟩

/-- No phase of the endpoint runs while an approval of it can still be used. -/
private theorem usable_not_running (covered : Covered c) (exclusive : Exclusive c) {endpoint : String}
    (usable : endpoint ∈ c.boot.approved ∨ consuming c.recv = some endpoint ∨
      starting c.recv = some endpoint) : ¬ RunsFor c endpoint := by
  intro runs
  have withheld := exclusive.withheld endpoint (inProgress_iff.mpr (Or.inr runs))
  rcases usable with approved | pending | position
  · exact withheld approved
  · exact withheld (covered.pending endpoint pending)
  · exact exclusive.alone endpoint position runs

theorem reapproved_step (covered : Covered c) (exclusive : Exclusive c) (reapproved : Reapproved c)
    (moved : Transition env c action next) : Reapproved next := by
  obtain ⟨added, grown, ends⟩ := ended_running moved
  -- an endpoint whose approval was usable before keeps it over the events of the step
  have kept {endpoint : String} (usable : endpoint ∈ c.boot.approved ∨
      consuming c.recv = some endpoint ∨ starting c.recv = some endpoint) :
      approvedSince endpoint next.log := by
    rw [grown]
    refine approvedSince_append (fun i r member => ?_) (reapproved.usable endpoint usable)
    exact usable_not_running covered exclusive usable (ends i endpoint r member)
  rcases consent_cases moved with ⟨approved, recv, events, log, plain⟩ |
    ⟨endpoint, packet, addr, approved, rfl⟩ | ⟨endpoint, packet, addr, position, rfl⟩ |
    ⟨endpoint, packet, addr, serverUri, position, rfl⟩ | ⟨id, endpoint, -, assigned, rfl⟩
  · constructor
    · intro other usable
      apply kept
      rw [approved] at usable
      rcases recv with same | ⟨none, none'⟩
      · rw [same] at usable
        exact usable
      · rw [none, none'] at usable
        exact Or.inl (usable.resolve_right nofun)
    · rw [log]
      refine reapproved.starts.append fun event member earlier i other same => ?_
      subst same
      cases plain _ member
  · refine ⟨fun other usable => ?_, reapproved.starts⟩
    apply kept
    rcases usable with held | pending | position
    · exact Or.inl held
    · cases pending
      exact Or.inl approved
    · cases position
  · refine ⟨fun other usable => ?_, nofun, reapproved.starts⟩
    apply kept
    rcases usable with held | pending | started
    · exact Or.inl (Finset.mem_of_mem_erase held)
    · cases pending
    · cases started
      exact Or.inr (Or.inl (by rw [position]; rfl))
  · refine ⟨fun other usable => ?_, fun i other same => ?_, reapproved.starts⟩
    · apply kept
      rcases usable with held | pending | started
      · exact Or.inl held
      · cases pending
      · cases started
    · cases same
      refine approvedSince_iff.mp (reapproved.usable endpoint (Or.inr (Or.inr ?_)))
      rw [position]
      rfl
  · refine ⟨fun other usable => ?_, nofun, reapproved.starts⟩
    by_cases same : endpoint = other
    · simp [approvedSince, same]
    · apply kept
      rcases usable with held | rest
      · exact Or.inl ((Finset.mem_insert.mp held).resolve_left (Ne.symm same))
      · exact Or.inr rest

/-- **Re-approval is required**, in every run in which no approval is given
for an endpoint whose write phase is in progress: between the end of a write
phase and the start of the next one for the endpoint lies an approval. -/
theorem restart_needs_approval {s : Server}
    (reached : (serverMachine env).Reaches (fun s action => ApprovesIdle s.core action) s) :
    EveryEvent StartReapproved s.log := by
  have all : (Covered s.core ∧ Exclusive s.core) ∧ Reapproved s.core := by
    refine core_invariant (fun c action => ApprovesIdle c action)
      (fun c => (Covered c ∧ Exclusive c) ∧ Reapproved c) reached ?_ ?_
    · intro c initial
      exact ⟨⟨covered_initial initial, exclusive_initial initial⟩, reapproved_initial initial⟩
    · intro c action next ⟨⟨covered, exclusive⟩, reapproved⟩ idle moved
      exact ⟨⟨covered_step covered moved, exclusive_step covered exclusive idle moved⟩,
        reapproved_step covered exclusive reapproved moved⟩
  exact all.2.starts

theorem restart_needs_approval_when_included_twice :
    ∃ s, (serverMachine Peer.env).exec (fun s action => ApprovesIdle s.core action)
        Peer.server includeTwice = some s ∧ s.phases.count = 2 ∧
      EveryEvent StartReapproved s.log := by
  obtain ⟨s, ran, reached, ends⟩ := (serverMachine Peer.env).exec_reaches
    (fun s action => ApprovesIdle s.core action) Peer.server includeTwice
    (fun s => decide (s.phases.count = 2)) ⟨_, _, _, _, _, rfl⟩ (by decide +kernel)
  exact ⟨s, ran, of_decide_eq_true ends, restart_needs_approval reached⟩

/-- The user approves once more while the write phase runs; the phase ends
well, and the device, reset later, sends one POST /bs. -/
def approveBeforeEnd : List Action :=
  Peer.approach "mower" Peer.genuine ++ .includeDevice 1 ::
    Peer.provision (.response .changed) ++ Peer.advance 0 3 ++
    Peer.deliver (Peer.post "bs" "mower") 5

/-- The second write phase then starts on the approval given before the first
one ended. -/
theorem restarted_on_old_approval :
    ∃ s, (serverMachine Peer.env).exec Machine.always Peer.server approveBeforeEnd = some s ∧
      ¬ EveryEvent StartReapproved s.log := by
  obtain ⟨s, ran, -, ends⟩ := (serverMachine Peer.env).exec_reaches Machine.always Peer.server
    approveBeforeEnd
    (fun s => s.log.head? = some (.started 1 "mower") && !approvedSince "mower" s.log.tail)
    ⟨_, _, _, _, _, rfl⟩ (by decide +kernel)
  simp only [Bool.and_eq_true, decide_eq_true_eq, Bool.not_eq_true', List.head?_eq_some_iff] at ends
  obtain ⟨⟨earlier, log⟩, old⟩ := ends
  refine ⟨s, ran, fun every => ?_⟩
  rw [log] at every old
  have since := approvedSince_iff.mpr (every.1 1 "mower" rfl)
  cases old.symm.trans since

end Lwm2mServer.Reapproval
