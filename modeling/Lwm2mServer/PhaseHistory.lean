import Lwm2mServer.Transitions

/-! What the history says about a write phase.

Seen from one write phase a step of the server is one of three things: some
other step, the spawning of a phase, or a move of a phase. `phase_cases` says
so once, and `phase_invariant` is the induction over runs for facts that
relate the position of a phase to the events it has left behind. -/
namespace Lwm2mServer
open Library

/-- The phase that an event belongs to. -/
def Event.phase? : Event → Option Nat
  | .started i _ | .registered i _ _ _ | .sent i _ _ | .encrypted i _ _ | .ended i _ _
  | .recorded i _ => some i
  | _ => none

variable {env : Env} {c next : Core} {action : Action}

/-- A step seen from the write phases. -/
theorem phase_cases (moved : Transition env c action next) :
    (next.phases = c.phases ∧
      ∃ events, next.log = events ++ c.log ∧ ∀ event ∈ events, event.phase? = none) ∨
    (∃ endpoint packet addr serverUri, c.recv = .acknowledge endpoint packet addr ∧
      next = { c with
        recv := .idle
        phases := c.phases.spawn ⟨endpoint, addr, serverUri, .alloc .deleteServer []⟩
        log := .started c.phases.count endpoint :: c.log }) ∨
    (∃ i choice task outcome, action = .phase i choice ∧ c.phases.get? i = some task ∧
      PhaseMove env c.boot i task outcome ∧ next = { c with
        boot := outcome.boot
        phases := c.phases.update i { task with pc := outcome.pc }
        log := outcome.events ++ c.log }) := by
  cases moved with
  | startPhase position => exact Or.inr (Or.inl ⟨_, _, _, _, position, rfl⟩)
  | phase held move => exact Or.inr (Or.inr ⟨_, _, _, _, rfl, held, move, rfl⟩)
  | quiet _ minor => exact Or.inl ⟨rfl, _, rfl, minor_events minor fun _ _ => rfl⟩
  | findApproved | missCert | reject | expire =>
    exact Or.inl ⟨rfl, [], rfl, fun _ member => by cases member⟩
  -- every remaining constructor adds one event that belongs to no phase
  | _ => exact Or.inl ⟨rfl, [_], rfl, List.forall_mem_singleton.mpr rfl⟩

/-- A phase leaves events of its own only. -/
theorem PhaseMove.events_own {boot : BootstrapRegistry} {i : Nat} {task : WritePhase}
    {outcome : PhaseOutcome} (move : PhaseMove env boot i task outcome) :
    ∀ event ∈ outcome.events, ∀ j, event.phase? = some j → j = i := by
  cases move <;> simp [Event.phase?]

/-- Every event of a phase names a phase that was spawned. -/
def PhasesNamed (c : Core) : Prop :=
  ∀ event ∈ c.log, ∀ i, event.phase? = some i → i < c.phases.count

theorem phasesNamed_initial (initial : c.Initial) : PhasesNamed c := by
  obtain ⟨seed, serverUri, included, rfl⟩ := initial
  intro event member i named
  rw [List.mem_singleton.mp member] at named
  cases named

theorem phasesNamed_step (named : PhasesNamed c) (moved : Transition env c action next) :
    PhasesNamed next := by
  rcases phase_cases moved with ⟨phases, events, log, foreign⟩ |
    ⟨endpoint, packet, addr, serverUri, -, rfl⟩ | ⟨i, choice, task, outcome, -, held, move, rfl⟩
  · intro event member j owned
    rw [phases]
    rw [log] at member
    rcases List.mem_append.mp member with added | old
    · rw [foreign event added] at owned
      cases owned
    · exact named event old j owned
  · intro event member j owned
    simp only [Tasks.count_spawn]
    rcases List.mem_cons.mp member with rfl | old
    · cases owned
      exact Nat.lt_succ_self _
    · exact Nat.lt_succ_of_lt (named event old j owned)
  · intro event member j owned
    simp only [Tasks.count_update]
    rcases List.mem_append.mp member with added | old
    · rw [move.events_own event added j owned]
      exact c.phases.lt_count held
    · exact named event old j owned

theorem reached_phasesNamed {s : Server} (reached : (serverMachine env).Reaches Machine.always s) :
    PhasesNamed s.core :=
  core_invariant Machine.always PhasesNamed reached (fun _ => phasesNamed_initial)
    fun _ _ _ named _ moved => phasesNamed_step named moved

/-- An event of a phase has its task. -/
theorem reached_task {s : Server} {i : Nat} {event : Event}
    (reached : (serverMachine env).Reaches Machine.always s) (member : event ∈ s.log)
    (owned : event.phase? = some i) : ∃ task, s.phases.get? i = some task :=
  s.phases.exists_of_lt_count (reached_phasesNamed reached event member i owned)

/-- Facts about one phase and the history: they hold when it is spawned, its
own moves keep them, and the events of others do not matter. `side` collects
what is already known of the reached cores. -/
theorem phase_invariant {env : Env} (condition : Core → Action → Prop) {s : Server}
    (reached : (serverMachine env).Reaches (fun s action => condition s.core action) s)
    (side : Core → Prop) (holds : List Event → Nat → WritePhase → Prop)
    (known : ∀ s, (serverMachine env).Reaches (fun s action => condition s.core action) s →
      side s.core)
    (spawned : ∀ log i endpoint addr serverUri, (∀ event ∈ log, event.phase? ≠ some i) →
      holds (.started i endpoint :: log) i ⟨endpoint, addr, serverUri, .alloc .deleteServer []⟩)
    (moves : ∀ c i task outcome, side c → c.phases.get? i = some task →
      PhaseMove env c.boot i task outcome → holds c.log i task →
      holds (outcome.events ++ c.log) i { task with pc := outcome.pc })
    (others : ∀ events log i task, (∀ event ∈ events, event.phase? ≠ some i) → holds log i task →
      holds (events ++ log) i task) :
    ∀ i task, s.phases.get? i = some task → holds s.log i task := by
  refine reached.invariant (fun s => ∀ i task, s.phases.get? i = some task → holds s.log i task) ?_ ?_
  · rintro s ⟨seed, serverUri, included, devices, clock, rfl⟩ i task held
    cases (Tasks.get?_empty i).symm.trans held
  · intro s action next before every allowed ran
    have named := reached_phasesNamed before.unguarded
    change ∀ j task, next.core.phases.get? j = some task → holds next.core.log j task
    rcases phase_cases (step_transition ran) with ⟨phases, events, log, foreign⟩ |
      ⟨endpoint, packet, addr, serverUri, -, same⟩ | ⟨i, choice, task, outcome, -, held, move, same⟩
    · intro j task held
      rw [phases] at held
      rw [log]
      refine others events s.log j task (fun event member => ?_) (every j task held)
      rw [foreign event member]
      simp
    · rw [same]
      intro j task held
      rw [Tasks.get?_spawn] at held
      split at held
      · rename_i fresh
        cases held
        subst fresh
        exact spawned s.log _ endpoint addr serverUri fun event member owned =>
          Nat.lt_irrefl _ (named event member _ owned)
      · rename_i old
        refine others [_] s.log j task (fun event member owned => ?_) (every j task held)
        rw [List.mem_singleton.mp member] at owned
        cases owned
        exact old rfl
    · rw [same]
      intro j other found
      rw [Tasks.get?_update _ held] at found
      split at found
      · rename_i own
        cases found
        subst own
        exact moves s.core _ task outcome (known s before) held move (every _ task held)
      · rename_i old
        refine others outcome.events s.log j other (fun event member owned => ?_)
          (every j other found)
        exact old (move.events_own event member j owned)

/-! ## Start, return and record of a phase -/

/-- The events that end a phase. -/
def Event.Outcome : Event → Bool
  | .ended .. | .recorded .. => true
  | _ => false

/-- A move with respect to the life of the phase: it goes on, fails, returns
`Ok`, or is on the way from there to `mark_included`. -/
theorem PhaseMove.progress {boot : BootstrapRegistry} {i : Nat} {task : WritePhase}
    {outcome : PhaseOutcome} (move : PhaseMove env boot i task outcome) :
    (task.pc.Running ∧ outcome.pc.Running ∧ ∀ event ∈ outcome.events, event.Outcome = false) ∨
    (task.pc.Running ∧ outcome.pc = .releaseId false ∧ ∃ e rest,
      outcome.events = .ended i task.endpoint (.error e) :: rest ∧
        ∀ event ∈ rest, event.Outcome = false) ∨
    (task.pc.Running ∧ outcome.pc = .reportOnline ∧
      outcome.events = [.ended i task.endpoint (.ok ())]) ∨
    (task.pc = .reportOnline ∧ outcome.pc = .releaseId true ∧
      outcome.events = [.connectionStatus task.endpoint true]) ∨
    (∃ success, task.pc = .releaseId success ∧
      outcome.pc = (if success then .mark else .finished) ∧ outcome.events = []) ∨
    (task.pc = .mark ∧ outcome.pc = .finished ∧ outcome.events = [.recorded i task.endpoint]) := by
  cases move with
  | alloc pc | encrypt pc | register pc | send pc =>
    exact Or.inl ⟨by rw [pc]; rfl, rfl, by simp [Event.Outcome]⟩
  | readCert pc | retransmit pc | giveUp pc => exact Or.inl ⟨by rw [pc]; rfl, rfl, by simp⟩
  | acknowledged pc _ _ goes =>
    refine Or.inl ⟨by rw [pc]; rfl, ?_, by simp⟩
    rcases goes with rfl | ⟨-, rfl⟩ <;> rfl
  | allocFailed pc | encryptFailed pc =>
    exact Or.inr (Or.inl ⟨by rw [pc]; rfl, rfl, _, _, rfl, by simp [Event.Outcome]⟩)
  | cancel pc => exact Or.inr (Or.inl ⟨by rw [pc]; rfl, rfl, _, _, rfl, by simp⟩)
  | fail running => exact Or.inr (Or.inl ⟨running, rfl, _, _, rfl, by simp⟩)
  | completed pc => exact Or.inr (Or.inr (Or.inl ⟨by rw [pc]; rfl, rfl, rfl⟩))
  | reportOnline pc => exact Or.inr (Or.inr (Or.inr (Or.inl ⟨pc, rfl, rfl⟩)))
  | release pc => exact Or.inr (Or.inr (Or.inr (Or.inr (Or.inl ⟨_, pc, rfl, rfl⟩))))
  | mark pc => exact Or.inr (Or.inr (Or.inr (Or.inr (Or.inr ⟨pc, rfl, rfl⟩))))

/-- `bootstrap_write_phase` returned `Ok` and the inclusion is not recorded
yet. -/
def PhasePc.Unrecorded : PhasePc → Bool
  | .reportOnline | .releaseId true | .mark => true
  | _ => false

theorem PhasePc.unrecorded_not_running {pc : PhasePc} (unrecorded : pc.Unrecorded) :
    pc.Running = false := by
  cases pc <;> first | rfl | cases unrecorded

/-- What the history holds of a phase at its position. -/
structure Placed (log : List Event) (i : Nat) (task : WritePhase) : Prop where
  started : ∀ endpoint, .started i endpoint ∈ log ↔ endpoint = task.endpoint
  running : task.pc.Running → ∀ event ∈ log, event.phase? = some i → event.Outcome = false
  returned : task.pc.Unrecorded → .ended i task.endpoint (.ok ()) ∈ log
  failed : task.pc = .releaseId false → ∃ e, .ended i task.endpoint (.error e) ∈ log
  finished : task.pc = .finished → .recorded i task.endpoint ∈ log ∨
    ∃ e, .ended i task.endpoint (.error e) ∈ log
  once : ∀ e e' r r', .ended i e r ∈ log → .ended i e' r' ∈ log → e = e' ∧ r = r'

namespace Placed
variable {log : List Event} {i : Nat} {task : WritePhase}

/-- While a phase runs it has not ended. -/
theorem not_ended (placed : Placed log i task) (running : task.pc.Running) :
    .ended i e r ∉ log := by
  intro member
  cases placed.running running _ member rfl

theorem spawned {endpoint : String} {addr : SocketAddr} {serverUri : String}
    (fresh : ∀ event ∈ log, event.phase? ≠ some i) :
    Placed (.started i endpoint :: log) i ⟨endpoint, addr, serverUri, .alloc .deleteServer []⟩ where
  started other := by
    rw [List.mem_cons]
    constructor
    · rintro (same | old)
      · cases same
        rfl
      · exact absurd rfl (fresh _ old)
    · rintro rfl
      exact Or.inl rfl
  running _ event member owned := by
    rcases List.mem_cons.mp member with rfl | old
    · rfl
    · exact absurd owned (fresh event old)
  returned unrecorded := by cases unrecorded
  failed pc := by cases pc
  finished pc := by cases pc
  once e e' r r' first _ := by
    rcases List.mem_cons.mp first with same | old
    · cases same
    · exact absurd rfl (fresh _ old)

/-- Events of other phases change nothing. -/
theorem others {events : List Event} (foreign : ∀ event ∈ events, event.phase? ≠ some i)
    (placed : Placed log i task) : Placed (events ++ log) i task := by
  have mine {event : Event} (owned : event.phase? = some i) (member : event ∈ events ++ log) :
      event ∈ log := by
    rcases List.mem_append.mp member with added | old
    · exact absurd owned (foreign event added)
    · exact old
  constructor
  · intro endpoint
    rw [← placed.started]
    exact ⟨mine rfl, List.mem_append_right _⟩
  · intro running event member owned
    exact placed.running running event (mine owned member) owned
  · intro unrecorded
    exact List.mem_append_right _ (placed.returned unrecorded)
  · intro pc
    obtain ⟨e, ended⟩ := placed.failed pc
    exact ⟨e, List.mem_append_right _ ended⟩
  · intro pc
    rcases placed.finished pc with recorded | ⟨e, ended⟩
    · exact Or.inl (List.mem_append_right _ recorded)
    · exact Or.inr ⟨e, List.mem_append_right _ ended⟩
  · intro e e' r r' first second
    exact placed.once e e' r r' (mine rfl first) (mine rfl second)

/-- A phase that ran until now leaves its first and only outcome. -/
private theorem ended_once (placed : Placed log i task) (running : task.pc.Running)
    {result : Except Error Unit} {rest : List Event}
    (plain : ∀ event ∈ rest, event.Outcome = false) (e e' : String) (r r' : Except Error Unit)
    (first : .ended i e r ∈ .ended i task.endpoint result :: rest ++ log)
    (second : .ended i e' r' ∈ .ended i task.endpoint result :: rest ++ log) : e = e' ∧ r = r' := by
  have only {e : String} {r : Except Error Unit}
      (member : .ended i e r ∈ .ended i task.endpoint result :: rest ++ log) :
      e = task.endpoint ∧ r = result := by
    rcases List.mem_cons.mp member with same | member
    · cases same
      exact ⟨rfl, rfl⟩
    · rcases List.mem_append.mp member with added | old
      · cases plain _ added
      · exact absurd old (placed.not_ended running)
  rw [(only first).1, (only first).2, (only second).1, (only second).2]
  exact ⟨rfl, rfl⟩

/-- Own moves keep the relation. -/
theorem moves {boot : BootstrapRegistry} {outcome : PhaseOutcome} (placed : Placed log i task)
    (move : PhaseMove env boot i task outcome) :
    Placed (outcome.events ++ log) i { task with pc := outcome.pc } := by
  have started (endpoint : String) :
      .started i endpoint ∈ outcome.events ++ log ↔ endpoint = task.endpoint := by
    rw [← placed.started, List.mem_append]
    refine ⟨fun member => member.resolve_left fun added => ?_, Or.inr⟩
    cases move <;> simp at added
  rcases move.progress with ⟨running, goes, plain⟩ | ⟨running, goes, e, rest, events, plain⟩ |
    ⟨running, goes, events⟩ | ⟨pc, goes, events⟩ | ⟨success, pc, goes, events⟩ | ⟨pc, goes, events⟩
  · refine ⟨started, fun _ event member owned => ?_, ?_, ?_, ?_, ?_⟩
    · rcases List.mem_append.mp member with added | old
      · exact plain event added
      · exact placed.running running event old owned
    · intro unrecorded
      rw [PhasePc.unrecorded_not_running unrecorded] at goes
      cases goes
    · intro released
      have still : PhasePc.Running (.releaseId false) := released ▸ goes
      cases still
    · intro finished
      have still : PhasePc.Running .finished := finished ▸ goes
      cases still
    · intro e e' r r' first second
      rcases List.mem_append.mp first with added | old
      · cases plain _ added
      · exact absurd old (placed.not_ended running)
  · rw [events] at started ⊢
    rw [goes]
    refine ⟨started, nofun, nofun,
      fun _ => ⟨e, List.mem_append_left _ List.mem_cons_self⟩, nofun, ?_⟩
    exact placed.ended_once running plain
  · rw [events] at started ⊢
    rw [goes]
    refine ⟨started, nofun, fun _ => List.mem_append_left _ List.mem_cons_self,
      nofun, nofun, ?_⟩
    exact placed.ended_once running (by simp)
  · have ended := placed.returned (by rw [pc]; rfl)
    have foreign : ∀ event ∈ outcome.events, event.phase? ≠ some i := by
      rw [events]
      simp [Event.phase?]
    have later := placed.others foreign
    rw [goes]
    exact ⟨started, nofun, fun _ => List.mem_append_right _ ended,
      nofun, nofun, later.once⟩
  · rw [events, goes]
    cases success with
    | true =>
      have ended := placed.returned (by rw [pc]; rfl)
      exact ⟨placed.started, nofun, fun _ => ended, nofun,
        nofun, placed.once⟩
    | false =>
      obtain ⟨e, ended⟩ := placed.failed pc
      exact ⟨placed.started, nofun, nofun,
        nofun, fun _ => Or.inr ⟨e, ended⟩, placed.once⟩
  · rw [events] at started ⊢
    rw [goes]
    refine ⟨started, nofun, nofun,
      nofun, fun _ => Or.inl List.mem_cons_self, ?_⟩
    intro e e' r r' first second
    simp only [List.cons_append, List.nil_append, List.mem_cons, reduceCtorEq, false_or]
      at first second
    exact placed.once e e' r r' first second

end Placed

/-- Every write phase stands where its history puts it. -/
theorem reached_placed {env : Env} {s : Server} {i : Nat} {task : WritePhase}
    (reached : (serverMachine env).Reaches Machine.always s) (held : s.phases.get? i = some task) :
    Placed s.log i task := by
  refine phase_invariant Machine.always reached (fun _ => True) Placed ?_ ?_ ?_ ?_ i task held
  · exact fun _ _ => trivial
  · exact fun log i endpoint addr serverUri fresh => Placed.spawned fresh
  · exact fun c i task outcome _ _ move placed => placed.moves move
  · exact fun events log i task foreign placed => placed.others foreign

/-- An inclusion is recorded by a phase that has returned `Ok`. -/
def AfterReturn (event : Event) (earlier : List Event) : Prop :=
  ∀ i endpoint, event = .recorded i endpoint → .ended i endpoint (.ok ()) ∈ earlier

private theorem afterReturn_move {boot : BootstrapRegistry} {log : List Event} {i : Nat}
    {task : WritePhase} {outcome : PhaseOutcome} (placed : Placed log i task)
    (move : PhaseMove env boot i task outcome) (every : EveryEvent AfterReturn log) :
    EveryEvent AfterReturn (outcome.events ++ log) := by
  rcases move.progress with ⟨-, -, plain⟩ | ⟨-, -, e, rest, events, plain⟩ | ⟨-, -, events⟩ |
    ⟨-, -, events⟩ | ⟨success, -, -, events⟩ | ⟨pc, -, events⟩
  · refine every.append fun event member earlier i endpoint same => ?_
    subst same
    cases plain _ member
  · rw [events]
    refine every.append fun event member earlier i endpoint same => ?_
    subst same
    rcases List.mem_cons.mp member with same | member
    · cases same
    · cases plain _ member
  · rw [events]
    exact ⟨nofun, every⟩
  · rw [events]
    exact ⟨nofun, every⟩
  · rw [events]
    exact every
  · rw [events]
    refine ⟨fun i endpoint same => ?_, every⟩
    cases same
    exact placed.returned (by rw [pc]; rfl)

theorem recorded_after_return {env : Env} {s : Server}
    (reached : (serverMachine env).Reaches Machine.always s) : EveryEvent AfterReturn s.log := by
  refine history_invariant reached AfterReturn (fun _ => nofun) ?_
  intro s action next before _ every moved
  rcases phase_cases moved with ⟨-, events, log, foreign⟩ |
    ⟨endpoint, packet, addr, serverUri, -, same⟩ | ⟨i, choice, task, outcome, -, held, move, same⟩
  · rw [log]
    refine every.append fun event member earlier i endpoint same => ?_
    subst same
    cases foreign _ member
  · rw [same]
    exact ⟨nofun, every⟩
  · rw [same]
    exact afterReturn_move (reached_placed before held) move every

end Lwm2mServer
