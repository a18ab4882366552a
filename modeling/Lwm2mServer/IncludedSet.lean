import Lwm2mServer.Library.Observers
import Lwm2mServer.PhaseHistory
import Lwm2mServer.RecvSteps

/-! The included set over whole runs: it is what the latest inclusion or
exclusion of each endpoint left behind, and nothing else in the server
touches it. -/
namespace Lwm2mServer.IncludedSet
open Library

/-- The events that decide whether an endpoint is included: it was loaded at
start-up, a write phase recorded it, or an exclusion removed it. -/
def Concerns (endpoint : String) : Event → Bool
  | .loaded endpoints => endpoint ∈ endpoints
  | .recorded _ other => other = endpoint
  | .excluded other => other = endpoint
  | _ => false

/-- The latest event about an endpoint is there and is not its exclusion. -/
def Standing (endpoint : String) (log : List Event) : Prop :=
  ∃ event, log.find? (Concerns endpoint) = some event ∧ event ≠ .excluded endpoint

theorem standing_cons_other {event : Event} {log : List Event} {endpoint : String}
    (silent : Concerns endpoint event = false) :
    Standing endpoint (event :: log) ↔ Standing endpoint log := by
  simp only [Standing, List.find?_cons, silent]

theorem standing_append_other {events log : List Event} {endpoint : String}
    (silent : ∀ event ∈ events, Concerns endpoint event = false) :
    Standing endpoint (events ++ log) ↔ Standing endpoint log := by
  induction events with
  | nil => rfl
  | cons event rest ih =>
    rw [List.cons_append, standing_cons_other (silent event List.mem_cons_self)]
    exact ih fun other member => silent other (List.mem_cons_of_mem event member)

theorem standing_loaded {endpoints : List String} {endpoint : String} :
    Standing endpoint [.loaded endpoints] ↔ endpoint ∈ endpoints := by
  by_cases member : endpoint ∈ endpoints <;> simp [Standing, Concerns, member]

theorem standing_recorded {log : List Event} {i : Nat} {endpoint other : String} :
    Standing other (.recorded i endpoint :: log) ↔ other = endpoint ∨ Standing other log := by
  by_cases same : endpoint = other
  · subst same
    simp [Standing, Concerns]
  · rw [standing_cons_other (by simp [Concerns, same])]
    simp [Ne.symm same]

theorem standing_excluded {log : List Event} {endpoint other : String} :
    Standing other (.excluded endpoint :: log) ↔ other ≠ endpoint ∧ Standing other log := by
  by_cases same : endpoint = other
  · subst same
    simp [Standing, Concerns]
  · rw [standing_cons_other (by simp [Concerns, same])]
    simp [Ne.symm same]

/-- An endpoint with an event of its own and no exclusion since some point
stands. -/
theorem standing_of_mem {event : Event} {recent log : List Event} {endpoint : String}
    (member : event ∈ recent) (concerns : Concerns endpoint event)
    (kept : .excluded endpoint ∉ recent) : Standing endpoint (recent ++ log) := by
  cases found : recent.find? (Concerns endpoint) with
  | none => exact absurd concerns (List.find?_eq_none.mp found event member)
  | some latest =>
    refine ⟨latest, by rw [List.find?_append, found]; rfl, fun same => ?_⟩
    exact kept (same ▸ List.mem_of_find?_eq_some found)

variable {env : Env} {c next : Core} {action : Action}

/-- A step changes the included set by recording one endpoint, by excluding
one, or not at all. -/
theorem included_cases (moved : Transition env c action next) :
    (next.boot.included = c.boot.included ∧ ∃ events, next.log = events ++ c.log ∧
      ∀ event ∈ events, ∀ endpoint, Concerns endpoint event = false) ∨
    (∃ i endpoint, next.boot.included = insert endpoint c.boot.included ∧
      next.log = .recorded i endpoint :: c.log) ∨
    (∃ endpoint, next.boot.included = c.boot.included.erase endpoint ∧
      next.log = .excluded endpoint :: c.log) := by
  cases moved with
  | exclude => exact Or.inr (Or.inr ⟨_, rfl, rfl⟩)
  | phase held move =>
    cases move with
    | mark => exact Or.inr (Or.inl ⟨_, _, rfl, rfl⟩)
    | _ => exact Or.inl ⟨rfl, _, rfl, by simp [Concerns]⟩
  | quiet _ minor =>
    exact Or.inl ⟨rfl, _, rfl, minor_events minor fun _ _ _ => rfl⟩
  | findApproved | missCert | reject | expire =>
    exact Or.inl ⟨rfl, [], rfl, fun _ member => by cases member⟩
  | _ => exact Or.inl ⟨rfl, [_], rfl, List.forall_mem_singleton.mpr fun _ => rfl⟩

/-- Only a write phase that has reached `mark_included` and an exclusion change
the included set. -/
theorem included_step {s server : Server} (ran : s.step env action = some server) :
    server.boot.included = s.boot.included ∨
      (∃ i choice task, action = .phase i choice ∧ s.phases.get? i = some task ∧ task.pc = .mark ∧
        server.boot.included = insert task.endpoint s.boot.included) ∨
      ∃ i, action = .exclusion i ∧ server.boot.included ⊆ s.boot.included := by
  have moved := step_transition ran
  generalize before : s.core = c at moved
  generalize after : server.core = c' at moved
  have boot : s.boot = c.boot := congrArg Core.boot before
  have boot' : server.boot = c'.boot := congrArg Core.boot after
  rw [boot, boot']
  cases moved with
  | exclude => exact Or.inr (Or.inr ⟨_, rfl, Finset.erase_subset _ _⟩)
  | phase held move =>
    cases move with
    | mark pc =>
      have phases : s.phases = c.phases := congrArg Core.phases before
      exact Or.inr (Or.inl ⟨_, _, _, rfl, phases ▸ held, pc, rfl⟩)
    | _ => exact Or.inl rfl
  | _ => exact Or.inl rfl

/-- The included set is what the history says. -/
def Tracks (c : Core) : Prop := ∀ endpoint, endpoint ∈ c.boot.included ↔ Standing endpoint c.log

theorem mem_loadIncluded (r : BootstrapRegistry) (endpoints : List String) (endpoint : String) :
    endpoint ∈ (r.loadIncluded endpoints).included ↔ endpoint ∈ endpoints ∨ endpoint ∈ r.included := by
  simp only [BootstrapRegistry.loadIncluded]
  generalize r.included = set
  induction endpoints generalizing set with
  | nil => simp
  | cons head rest ih =>
    rw [List.foldl_cons, ih, Finset.mem_insert, List.mem_cons]
    tauto

theorem tracks_initial (initial : c.Initial) : Tracks c := by
  obtain ⟨seed, serverUri, included, rfl⟩ := initial
  intro endpoint
  rw [standing_loaded, mem_loadIncluded]
  simp [BootstrapRegistry.new]

theorem tracks_step (tracks : Tracks c) (moved : Transition env c action next) : Tracks next := by
  intro other
  rcases included_cases moved with ⟨same, events, log, silent⟩ | ⟨i, endpoint, inserted, log⟩ |
    ⟨endpoint, erased, log⟩
  · rw [same, log, standing_append_other fun event member => silent event member other]
    exact tracks other
  · rw [inserted, log, standing_recorded, Finset.mem_insert, tracks other]
  · rw [erased, log, standing_excluded, Finset.mem_erase, tracks other]

theorem reached_tracks {s : Server} (reached : (serverMachine env).Reaches Machine.always s) :
    Tracks s.core :=
  core_invariant Machine.always Tracks reached (fun _ => tracks_initial)
    fun _ _ _ tracks _ moved => tracks_step tracks moved

/-! ## Exclusions -/

/-- `unmark_included` has run for the exclusion. -/
def Unmarked (task : Exclusion) : Bool :=
  match task.pc with
  | .deregister _ | .persist | .finished => true
  | _ => false

/-- Only an exclusion's own steps and the command that starts it change the
exclusions. -/
theorem exclusions_step {s next : Server} (ran : s.step env action = some next)
    (running : ∀ id, action ≠ .exclusion id) (starting : ∀ device, action ≠ .excludeDevice device) :
    next.exclusions = s.exclusions := by
  cases action with
  | recv choice => exact (RecvSteps.recvStep_frame ran).2
  | exclusion id => exact absurd rfl (running id)
  | excludeDevice device => exact absurd rfl (starting device)
  | receive packet addr =>
    simp only [Server.step] at ran
    split at ran <;> cases ran <;> rfl
  | phase id choice =>
    obtain ⟨task, -, ran⟩ := Option.bind_eq_some_iff.mp ran
    obtain ⟨outcome, -, ran⟩ := Option.bind_eq_some_iff.mp ran
    cases ran
    rfl
  | includeDevice id =>
    cases ran
    simp only [Server.includeStep]
    split <;> rfl
  | removal id =>
    simp only [Server.step, Server.removalStep] at ran
    obtain ⟨task, -, ran⟩ := Option.bind_eq_some_iff.mp ran
    split at ran <;> cases ran
    rfl
  | housekeeping =>
    cases ran
    simp only [Server.housekeepingStep]
    split <;> rfl
  | client call =>
    cases ran
    cases call with
    | completeInFlight addr token =>
      simp only [Server.clientStep, Server.answer]
      split <;> rfl
    | _ => rfl
  | advance nanos =>
    cases ran
    rfl

/-- An exclusion past `unmark_included` has its event in the history. -/
def ExclusionsLogged (s : Server) : Prop :=
  ∀ id task, s.exclusions.get? id = some task → Unmarked task → .excluded task.device ∈ s.log

/-- Steps that leave the exclusions alone only add to the history. -/
private theorem logged_of_same {s next : Server} (logged : ExclusionsLogged s)
    (same : next.exclusions = s.exclusions) (moved : Transition env s.core action next.core) :
    ExclusionsLogged next := by
  intro id task held unmarked
  rw [same] at held
  exact moved.mem_log (logged id task held unmarked)

private theorem logged_exclusion {s next : Server} {id : Nat} (logged : ExclusionsLogged s)
    (ran : s.exclusionStep id = some next) : ExclusionsLogged next := by
  unfold Server.exclusionStep at ran
  obtain ⟨task, held, ran⟩ := Option.bind_eq_some_iff.mp ran
  -- the moved task is justified on its own; the others keep their event
  have update {pc : ExclusionPc} {log : List Event} (grows : ∀ event ∈ s.log, event ∈ log)
      (own : Unmarked { task with pc } → .excluded task.device ∈ log) :
      ∀ other moved, (s.exclusions.update id { task with pc }).get? other = some moved →
        Unmarked moved → .excluded moved.device ∈ log := by
    intro other moved found unmarked
    rw [Tasks.get?_update _ held] at found
    split at found
    · cases found
      exact own unmarked
    · exact grows _ (logged other moved found unmarked)
  have stay : ∀ event ∈ s.log, event ∈ s.log := fun _ member => member
  dsimp only at ran
  split at ran
  · obtain ⟨found, -, ran⟩ := Option.bind_eq_some_iff.mp ran
    split at ran <;> cases ran <;> exact update stay nofun
  · cases ran
    exact update stay nofun
  · cases ran
    exact update (fun _ member => List.mem_cons_of_mem _ member) fun _ => List.mem_cons_self
  · rename_i pc
    cases ran
    exact update stay fun _ => logged id task held (by rw [Unmarked, pc])
  · rename_i pc
    cases ran
    exact update stay fun _ => logged id task held (by rw [Unmarked, pc])
  · rename_i pc
    cases ran
    exact update stay fun _ => logged id task held (by rw [Unmarked, pc])
  · cases ran

theorem logged_step {s next : Server} (logged : ExclusionsLogged s)
    (ran : s.step env action = some next) : ExclusionsLogged next := by
  have moved := step_transition ran
  cases action with
  | exclusion id => exact logged_exclusion logged ran
  | excludeDevice device =>
    cases ran
    intro id task held unmarked
    rw [Tasks.get?_spawn] at held
    split at held
    · cases held
      cases unmarked
    · exact logged id task held unmarked
  | _ => exact logged_of_same logged (exclusions_step ran (by simp) (by simp)) moved

theorem reached_exclusionsLogged {s : Server}
    (reached : (serverMachine env).Reaches Machine.always s) : ExclusionsLogged s := by
  refine reached.invariant ExclusionsLogged ?_
    fun s action next _ logged _ ran => logged_step logged ran
  rintro s ⟨seed, serverUri, included, devices, clock, rfl⟩ id task held
  cases (Tasks.get?_empty id).symm.trans held

/-- The included set of a state is accounted for by its history. -/
structure Accounted (env : Env) (s : Server) : Prop where
  /-- An endpoint is included exactly when the latest of its loading, its
  recorded inclusions and its exclusions is not an exclusion. -/
  latest : ∀ endpoint, endpoint ∈ s.boot.included ↔ Standing endpoint s.log
  /-- Inclusion is recorded only after the write phase returned `Ok`. -/
  recorded : EveryEvent AfterReturn s.log
  /-- No exclusion finishes without its event, which marks `unmark_included`. -/
  finished : ∀ id task, s.exclusions.get? id = some task → task.pc = .finished →
    .excluded task.device ∈ s.log
  /-- A step that neither records nor excludes leaves the set as it is. -/
  unchanged : ∀ action next, s.step env action = some next →
    next.boot.included = s.boot.included ∨ (∃ i endpoint, next.log = .recorded i endpoint :: s.log) ∨
      ∃ endpoint, next.log = .excluded endpoint :: s.log

/-- **The included set changes only by inclusion and exclusion**, in every
state of every run: whatever packets, timeouts and commands come in whatever
order. -/
theorem included_set_accounted {s : Server}
    (reached : (serverMachine env).Reaches Machine.always s) : Accounted env s where
  latest := reached_tracks reached
  recorded := recorded_after_return reached
  finished id task held finished :=
    reached_exclusionsLogged reached id task held (by rw [Unmarked, finished])
  unchanged action next ran := by
    rcases included_cases (step_transition ran) with ⟨same, -⟩ | ⟨i, endpoint, -, log⟩ |
      ⟨endpoint, -, log⟩
    · exact Or.inl same
    · exact Or.inr (Or.inl ⟨i, endpoint, log⟩)
    · exact Or.inr (Or.inr ⟨endpoint, log⟩)

/-- A device is included and then excluded over IPC. -/
def includeThenExclude : List Action :=
  Peer.approach "mower" Peer.genuine ++ Peer.provision (.response .changed) ++ Peer.advance 0 3 ++
    [.excludeDevice "mower", .exclusion 0, .exclusion 0, .exclusion 0, .exclusion 0]

/-- After that run the device is out and one from the persisted list still in. -/
theorem included_set_accounted_after_exclusion :
    ∃ s, (serverMachine Peer.env).exec Machine.always
        (.initial 0 (some "coaps://gateway") ["pump"] .new 0) includeThenExclude = some s ∧
      ("mower" ∉ s.boot.included ∧ "pump" ∈ s.boot.included) ∧ Accounted Peer.env s := by
  obtain ⟨s, ran, reached, ends⟩ := (serverMachine Peer.env).exec_reaches Machine.always
    (.initial 0 (some "coaps://gateway") ["pump"] .new 0) includeThenExclude
    (fun s => decide ("mower" ∉ s.boot.included ∧ "pump" ∈ s.boot.included))
    ⟨_, _, _, _, _, rfl⟩ (by decide +kernel)
  exact ⟨s, ran, of_decide_eq_true ends, included_set_accounted reached⟩

/-! ## Exclusions by their ends

The set is changed in the middle of an exclusion. An inclusion that is recorded
after that and before the exclusion is over stays in force, though the
exclusion is the last to finish. -/

/-- What decides about an endpoint when an exclusion counts once it has
finished. -/
inductive Outcome where
  | loaded (endpoints : List String)
  | recorded (endpoint : String)
  | finished (endpoint : String)
  deriving DecidableEq

def Outcome.Concerns (endpoint : String) : Outcome → Bool
  | .loaded endpoints => endpoint ∈ endpoints
  | .recorded other | .finished other => other = endpoint

def loadedAt (s : Server) : List Outcome :=
  s.log.filterMap fun event => match event with
    | .loaded endpoints => some (.loaded endpoints)
    | _ => none

/-- The outcome of a step: a write phase records its endpoint, or
`handle_exclusion` has done its last step on the server's state. -/
def outcomes (s : Server) : Action → List Outcome
  | .phase i _ =>
    match s.phases.get? i with
    | some task => match task.pc with
      | .mark => [.recorded task.endpoint]
      | _ => []
    | none => []
  | .exclusion i =>
    match s.exclusions.get? i with
    | some task => match task.pc with
      | .persist => [.finished task.device]
      | _ => []
    | none => []
  | _ => []

/-- The server with these outcomes. -/
def byEnds (env : Env) : Machine (Server × List Outcome) Action :=
  (serverMachine env).observed loadedAt fun s action _ => outcomes s action

/-- An endpoint is included exactly when the latest outcome about it is not the
end of an exclusion. -/
def FollowsEnds (seen : Server × List Outcome) : Prop :=
  ∀ endpoint, endpoint ∈ seen.1.boot.included ↔
    ∃ outcome, seen.2.find? (Outcome.Concerns endpoint) = some outcome ∧ outcome ≠ .finished endpoint

/-- An exclusion takes the mower out, a write phase that was under way records
it, and the exclusion goes on to its end. -/
def excludedMeanwhile : List Action :=
  Peer.approach "mower" Peer.genuine ++ Peer.provision (.response .changed) ++ Peer.advance 0 2 ++
    [.excludeDevice "mower", .exclusion 0, .exclusion 0] ++ Peer.advance 0 1 ++
    [.exclusion 0, .exclusion 0]

/-- The mower is included, and its exclusion was the last to finish. -/
theorem excludedMeanwhile_included :
    ∃ seen, (byEnds Peer.env).Reaches Machine.always seen ∧ ¬ FollowsEnds seen ∧
      "mower" ∈ seen.1.boot.included ∧ seen.2.head? = some (.finished "mower") := by
  obtain ⟨seen, -, reached, ends⟩ := (byEnds Peer.env).exec_reaches Machine.always
    (Peer.server, loadedAt Peer.server) excludedMeanwhile
    (fun seen => decide ("mower" ∈ seen.1.boot.included ∧ seen.2.head? = some (.finished "mower")))
    ⟨⟨_, _, _, _, _, rfl⟩, rfl⟩ (by decide +kernel)
  obtain ⟨included, latest⟩ := of_decide_eq_true ends
  refine ⟨seen, reached, fun follows => ?_, included, latest⟩
  obtain ⟨outcome, found, other⟩ := (follows "mower").mp included
  obtain ⟨earlier, split⟩ := List.head?_eq_some_iff.mp latest
  rw [split, List.find?_cons_of_pos (by simp [Outcome.Concerns])] at found
  exact other (Option.some.inj found).symm

end Lwm2mServer.IncludedSet
