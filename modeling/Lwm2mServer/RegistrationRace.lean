import Lwm2mServer.IncludedSet
import Lwm2mServer.WriteOrder

/-! A device that has just finished bootstrapping registers.

The acknowledgement of the last request only wakes the write-phase task. The
task reports, drops the id and takes the lock again before it records the
inclusion, and meanwhile the receive loop reads on: a POST /rd handled in that
time finds the device not included and resets it. In the runs in which none is,
a device is reset after its last acknowledgement only because its phase fails
or it is excluded. -/
namespace Lwm2mServer.RegistrationRace
open Library WriteAcks WriteOrder IncludedSet

variable {env : Env} {c next : Core} {action : Action} {s : Server}

/-- The last request of the phase is acknowledged and its inclusion is not
recorded yet. -/
def Concluding (boot : BootstrapRegistry) (task : WritePhase) : Bool :=
  match task.pc with
  | .send .postBs _ channel _ _ | .wait .postBs _ channel _ _ =>
    boot.oneshots.cell channel = .sent true
  | pc => pc.Unrecorded

/-- `handle_registration` looks up an endpoint none of whose write phases is
between its last acknowledgement and `mark_included`. -/
def RegistersSettled (c : Core) : Action → Bool
  | .recv _ =>
    match c.recv with
    | .askIncluded endpoint _ =>
      c.phases.all.all fun task => task.endpoint ≠ endpoint || !Concluding c.boot task
    | _ => true
  | _ => true

/-! ## Failing phases -/

/-- The phase has failed, or has given up and is about to. -/
def Failing (c : Core) (i : Nat) : Prop :=
  (∃ endpoint e, .ended i endpoint (.error e) ∈ c.log) ∨
    ∃ task step token, c.phases.get? i = some task ∧ task.pc = .cancel step token

/-- A phase that has given up goes on to return the error. -/
private theorem ended_of_cancel {boot : BootstrapRegistry} {i : Nat} {task : WritePhase}
    {outcome : PhaseOutcome} {step : WriteStep} {token : Token}
    (move : PhaseMove env boot i task outcome) (pc : task.pc = .cancel step token) :
    ∃ e, .ended i task.endpoint (.error e) ∈ outcome.events := by
  cases move with
  | cancel | fail | allocFailed | encryptFailed => exact ⟨_, List.mem_cons_self⟩
  | alloc position | readCert position | encrypt position | register position | send position
  | acknowledged position | completed position | retransmit position | giveUp position
  | reportOnline position | release position | mark position => cases pc.symm.trans position

theorem failing_step {i : Nat} (failing : Failing c i) (moved : Transition env c action next) :
    Failing next i := by
  rcases failing with ⟨endpoint, e, ended⟩ | ⟨task, step, token, held, pc⟩
  · exact Or.inl ⟨endpoint, e, moved.mem_log ended⟩
  rcases phase_cases moved with ⟨phases, -⟩ | ⟨endpoint, packet, addr, serverUri, -, rfl⟩ |
    ⟨j, choice, other, outcome, -, held', move, rfl⟩
  · exact Or.inr ⟨task, step, token, by rw [phases]; exact held, pc⟩
  · refine Or.inr ⟨task, step, token, ?_, pc⟩
    rw [Tasks.get?_spawn, if_neg]
    · exact held
    · rintro rfl
      exact Nat.lt_irrefl _ (c.phases.lt_count held)
  · by_cases same : i = j
    · subst same
      cases held.symm.trans held'
      obtain ⟨e, ended⟩ := ended_of_cancel move pc
      exact Or.inl ⟨task.endpoint, e, List.mem_append_left _ ended⟩
    · refine Or.inr ⟨task, step, token, ?_, pc⟩
      rw [Tasks.get?_update _ held', if_neg same]
      exact held

/-! ## The branch for devices not included -/

/-- The endpoint that an event of the branch is about. -/
def resetOf : Event → Option String
  | .refused endpoint | .resetDispatched endpoint _ _ | .removalScheduled endpoint _ => some endpoint
  | _ => none

/-- The endpoint for which the receive loop is in the branch. -/
def resetting : Recv → Option String
  | .dispatchReset endpoint _ | .scheduleRemoval endpoint _ => some endpoint
  | _ => none

theorem resetting_plain {recv : Recv} (plain : recv.Plain) : resetting recv = none := by
  cases recv <;> first | rfl | cases plain

/-- An answer reached a write phase. -/
def Answers : Event → Bool
  | .answered .. => true
  | _ => false

/-- A step seen from the branch: it enters it, goes on in it, or has nothing to
do with it. Inside the branch the receive loop hands on no answer. -/
theorem reset_cases (moved : Transition env c action next) :
    (∃ events, next.log = events ++ c.log ∧ (∀ event ∈ events, resetOf event = none) ∧
      (resetting next.recv = none ∨
        next.recv = c.recv ∧ ∀ event ∈ events, Answers event = false)) ∨
    (∃ choice endpoint addr, action = .recv choice ∧ c.recv = .askIncluded endpoint addr ∧
      endpoint ∉ c.boot.included ∧
      (∀ other, resetting next.recv = some other → other = endpoint) ∧
      next.log = .refused endpoint :: c.log) ∨
    (∃ endpoint event, resetting c.recv = some endpoint ∧
      (∀ other, resetting next.recv = some other → other = endpoint) ∧
      resetOf event = some endpoint ∧ Answers event = false ∧ next.log = event :: c.log) := by
  cases moved with
  | refuse position absent =>
    refine Or.inr (Or.inl ⟨_, _, _, rfl, position, absent, fun other same => ?_, rfl⟩)
    cases same
    rfl
  | dispatchReset position =>
    refine Or.inr (Or.inr ⟨_, _, by rw [position]; rfl, fun other same => ?_, rfl, rfl, rfl⟩)
    cases same
    rfl
  | scheduleRemoval position =>
    exact Or.inr (Or.inr ⟨_, _, by rw [position]; rfl, nofun, rfl, rfl, rfl⟩)
  | quiet moves minor =>
    refine Or.inl ⟨_, rfl, minor_events minor fun _ _ => rfl, ?_⟩
    rcases moves with same | ⟨plain, -⟩
    · exact Or.inr ⟨same, minor_events minor fun _ _ => rfl⟩
    · exact Or.inl (resetting_plain plain)
  | phase held move =>
    refine Or.inl ⟨_, rfl, ?_, Or.inr ⟨rfl, ?_⟩⟩
    · cases move <;> simp [resetOf]
    · cases move <;> simp [Answers]
  | findApproved | missCert | reject => exact Or.inl ⟨[], rfl, by simp, Or.inl rfl⟩
  | expire => exact Or.inl ⟨[], rfl, by simp, Or.inr ⟨rfl, by simp⟩⟩
  | approve | exclude => exact Or.inl ⟨[_], rfl, by simp [resetOf], Or.inr ⟨rfl, by simp [Answers]⟩⟩
  | _ => exact Or.inl ⟨[_], rfl, by simp [resetOf], Or.inl rfl⟩

/-! ## After the last acknowledgement -/

/-- Since the acknowledgement of the last request of any of its phases, other
than failing ones, the endpoint was excluded. -/
def Spared (failing : Nat → Prop) (endpoint : String) (log : List Event) : Prop :=
  ∀ i since channel token code before,
    log = since ++ .answered channel token true code :: before →
    .registered i .postBs token channel ∈ before → .started i endpoint ∈ before →
    failing i ∨ .excluded endpoint ∈ since

/-- The event is not the reset of an endpoint that had its last request
acknowledged, unless the phase fails or the endpoint was excluded. -/
def SparedAt (failing : Nat → Prop) (event : Event) (earlier : List Event) : Prop :=
  ∀ endpoint, resetOf event = some endpoint → Spared failing endpoint earlier

namespace Spared
variable {failing later : Nat → Prop} {endpoint : String} {log : List Event}

theorem mono (spared : Spared failing endpoint log) (implied : ∀ i, failing i → later i) :
    Spared later endpoint log := by
  intro i since channel token code before split registered started
  rcases spared i since channel token code before split registered started with fails | excluded
  · exact Or.inl (implied i fails)
  · exact Or.inr excluded

theorem append (spared : Spared failing endpoint log) (events : List Event)
    (silent : ∀ event ∈ events, Answers event = false) : Spared failing endpoint (events ++ log) := by
  intro i since channel token code before split registered started
  rcases List.append_eq_append_iff.mp split with ⟨recent, rfl, old⟩ | ⟨rest, rfl, added⟩
  · rcases spared i recent channel token code before old registered started with fails | excluded
    · exact Or.inl fails
    · exact Or.inr (List.mem_append_right _ excluded)
  · cases rest with
    | nil =>
      rcases spared i [] channel token code before added.symm registered started with fails | excluded
      · exact Or.inl fails
      · cases excluded
    | cons event rest =>
      cases added
      cases silent _ (List.mem_append_right _ List.mem_cons_self)

end Spared

/-- A recorded phase that is not included any more was excluded after the
acknowledgement of its last request. -/
private theorem excluded_since (reached : (serverMachine env).Reaches Machine.always s) {i : Nat}
    {task : WritePhase} (held : s.phases.get? i = some task) (absent : task.endpoint ∉ s.boot.included)
    (recorded : .recorded i task.endpoint ∈ s.log) {since before : List Event} {channel : Nat}
    {token : Token} {code : MessageClass}
    (split : s.log = since ++ .answered channel token true code :: before)
    (registered : .registered i .postBs token channel ∈ before) :
    .excluded task.endpoint ∈ since := by
  have suffix {holds : Event → List Event → Prop} (every : EveryEvent holds s.log) :
      EveryEvent holds (.answered channel token true code :: before) := by
    rw [split] at every
    exact every.of_append
  have old {event : Event} (member : event ∈ before) : event ∈ s.log := by
    rw [split]
    exact List.mem_append_right _ (List.mem_cons_of_mem _ member)
  -- the phase returned after the acknowledgement, so it was recorded after it too
  have recent : .recorded i task.endpoint ∈ since := by
    rw [split] at recorded
    refine (List.mem_append.mp recorded).resolve_right fun member => ?_
    have member := (List.mem_cons.mp member).resolve_left nofun
    obtain ⟨earlier, returned, kept⟩ := (suffix (recorded_after_return reached)).2.of_mem member
    obtain ⟨earlier', acked, kept'⟩ := (suffix (reached_inOrder reached)).2.of_mem
      (kept _ (returned i task.endpoint rfl))
    obtain ⟨token', channel', code', registered', answered'⟩ := acked .postBs
    obtain ⟨rfl, rfl⟩ := (reached_stepped reached held).channel .postBs token channel token' channel'
      (old registered) (old (kept' _ registered'))
    exact (suffix (reached_answeredOnce reached)).1 channel token true code rfl token true code'
      (kept' _ answered')
  by_contra kept
  refine absent ((reached_tracks reached task.endpoint).mpr ?_)
  change Standing task.endpoint s.log
  rw [split]
  exact standing_of_mem recent (by simp [Concerns]) kept

/-- A phase that has registered its last request and heard its
acknowledgement is concluding, failing or done. -/
private theorem last_cases (reached : (serverMachine env).Reaches Machine.always s) {i : Nat}
    {task : WritePhase} (held : s.phases.get? i = some task) {channel : Nat} {token : Token}
    (registered : .registered i .postBs token channel ∈ s.log)
    (heard : s.boot.oneshots.cell channel = .sent true) :
    Concluding s.boot task ∨ Failing s.core i ∨ .recorded i task.endpoint ∈ s.log := by
  have stepped := reached_stepped reached held
  have placed := reached_placed reached held
  have begun := stepped.begun .postBs token channel registered
  have own {step : WriteStep} {token' : Token} {channel' n : Nat}
      (position : transmitting task.pc = some (step, token', channel', n)) (last : 4 < rank step + 1) :
      step = .postBs ∧ channel' = channel := by
    have bound := rank_lt step
    have same : step = .postBs := rank_injective (by change rank step = 4; omega)
    subst same
    obtain ⟨registered', -⟩ := stepped.current .postBs token' channel' n position
    exact ⟨rfl, (stepped.channel .postBs token' channel' token channel registered' registered).2⟩
  cases pc : task.pc with
  | alloc step | register step =>
    rw [pc] at begun
    have bound := rank_lt step
    change 4 < rank step at begun
    omega
  | getCert | encrypt =>
    rw [pc] at begun
    change 4 < 3 at begun
    omega
  | send step token' channel' packet n | wait step token' channel' packet n =>
    rw [pc] at begun
    obtain ⟨rfl, rfl⟩ := own (by rw [pc]; rfl) begun
    exact Or.inl (by simp [Concluding, pc, heard])
  | cancel step token' => exact Or.inr (Or.inl (Or.inr ⟨task, step, token', held, pc⟩))
  | reportOnline | mark => exact Or.inl (by simp [Concluding, pc, PhasePc.Unrecorded])
  | releaseId success =>
    cases success with
    | true => exact Or.inl (by simp [Concluding, pc, PhasePc.Unrecorded])
    | false =>
      obtain ⟨e, ended⟩ := placed.failed pc
      exact Or.inr (Or.inl (Or.inl ⟨task.endpoint, e, ended⟩))
  | finished =>
    rcases placed.finished pc with recorded | ⟨e, ended⟩
    · exact Or.inr (Or.inr recorded)
    · exact Or.inr (Or.inl (Or.inl ⟨task.endpoint, e, ended⟩))

/-- What a registration that is refused says about the endpoint. -/
private theorem spared_of_absent (reached : (serverMachine env).Reaches Machine.always s)
    {endpoint : String} (absent : endpoint ∉ s.boot.included)
    (settled : ∀ task ∈ s.phases.all, task.endpoint = endpoint → Concluding s.boot task = false) :
    Spared (Failing s.core) endpoint s.log := by
  intro i since channel token code before split registered started
  have old {event : Event} (member : event ∈ before) : event ∈ s.log := by
    rw [split]
    exact List.mem_append_right _ (List.mem_cons_of_mem _ member)
  have answered : .answered channel token true code ∈ s.log := by
    rw [split]
    exact List.mem_append_right _ List.mem_cons_self
  obtain ⟨task, held⟩ := reached_task reached (old started) rfl
  have placed := reached_placed reached held
  have named : endpoint = task.endpoint := (placed.started endpoint).mp (old started)
  subst named
  have heard := ((reached_channels reached).fired channel token true code answered).2
  rcases last_cases reached held (old registered) heard with concluding | failing | recorded
  · rw [settled task (List.mem_of_getElem? held) rfl] at concluding
    cases concluding
  · exact Or.inl failing
  · exact Or.inr (excluded_since reached held absent recorded split registered)

/-- No endpoint is or is being reset in spite of its last acknowledgement. -/
structure Unharmed (c : Core) : Prop where
  pending : ∀ endpoint, resetting c.recv = some endpoint → Spared (Failing c) endpoint c.log
  resets : EveryEvent (SparedAt (Failing c)) c.log

/-- An event of the branch for an endpoint that may be reset. -/
private theorem unharmed_reset {event : Event} {endpoint : String}
    (resets : EveryEvent (SparedAt (Failing next)) c.log)
    (spared : Spared (Failing next) endpoint c.log)
    (goes : ∀ other, resetting next.recv = some other → other = endpoint)
    (reset : resetOf event = some endpoint) (silent : Answers event = false)
    (log : next.log = event :: c.log) : Unharmed next := by
  constructor
  · intro other position
    cases goes other position
    rw [log]
    exact spared.append [event] (List.forall_mem_singleton.mpr silent)
  · rw [log]
    refine ⟨fun other same => ?_, resets⟩
    cases reset.symm.trans same
    exact spared

private theorem unharmed_step {next : Server} (reached : (serverMachine env).Reaches Machine.always s)
    (unharmed : Unharmed s.core) (settled : RegistersSettled s.core action)
    (moved : Transition env s.core action next.core) : Unharmed next.core := by
  have later (i : Nat) (failing : Failing s.core i) : Failing next.core i :=
    failing_step failing moved
  have resets : EveryEvent (SparedAt (Failing next.core)) s.core.log :=
    unharmed.resets.mono fun event earlier spared endpoint reset => (spared endpoint reset).mono later
  rcases reset_cases moved with ⟨events, log, plain, recv⟩ |
    ⟨choice, endpoint, addr, rfl, position, absent, goes, log⟩ |
    ⟨endpoint, event, position, goes, reset, silent, log⟩
  · constructor
    · intro endpoint position
      rw [log]
      rcases recv with none | ⟨same, silent⟩
      · cases none.symm.trans position
      · rw [same] at position
        exact ((unharmed.pending endpoint position).mono later).append events silent
    · rw [log]
      refine resets.append fun event member earlier endpoint reset => ?_
      cases (plain event member).symm.trans reset
  · have spared : Spared (Failing s.core) endpoint s.log := by
      refine spared_of_absent reached absent fun task member named => ?_
      simp only [RegistersSettled, position, List.all_eq_true] at settled
      have idle := settled task member
      simp only [named, ne_eq, not_true_eq_false, decide_false, Bool.false_or,
        Bool.not_eq_true'] at idle
      exact idle
    exact unharmed_reset resets (spared.mono later) goes rfl rfl log
  · exact unharmed_reset resets ((unharmed.pending endpoint position).mono later) goes reset silent log

/-- **A device that has just finished bootstrapping is not reset**, in every
run in which no registration of an endpoint is decided between the last
acknowledgement of its write phase and `mark_included`. -/
theorem registration_spared
    (reached : (serverMachine env).Reaches (fun s action => RegistersSettled s.core action) s) :
    EveryEvent (SparedAt (Failing s.core)) s.log := by
  have unharmed : Unharmed s.core := by
    refine reached.invariant (fun s => Unharmed s.core) ?_ ?_
    · rintro s ⟨seed, serverUri, included, devices, clock, rfl⟩
      exact ⟨nofun, nofun, trivial⟩
    · intro s action next before unharmed settled ran
      exact unharmed_step before.unguarded unharmed settled (step_transition ran)
  exact unharmed.resets

/-- The device is included and registers. -/
def registerIncluded : List Action :=
  Peer.approach "mower" Peer.genuine ++ Peer.provision (.response .changed) ++ Peer.advance 0 3 ++
    Peer.deliver (Peer.post "rd" "mower") 4

theorem registration_spared_after_inclusion :
    ∃ s, (serverMachine Peer.env).exec (fun s action => RegistersSettled s.core action) Peer.server
        registerIncluded = some s ∧
      (s.devices.byEndpoint.lookup "mower").isSome ∧ EveryEvent (SparedAt (Failing s.core)) s.log := by
  obtain ⟨s, ran, reached, ends⟩ := (serverMachine Peer.env).exec_reaches
    (fun s action => RegistersSettled s.core action) Peer.server registerIncluded
    (fun s => (s.devices.byEndpoint.lookup "mower").isSome) ⟨_, _, _, _, _, rfl⟩ (by decide +kernel)
  exact ⟨s, ran, ends, registration_spared reached⟩

/-- The device registers right after its last acknowledgement, before the
write phase has moved; the phase then goes on to record the inclusion. -/
def registerEarly : List Action :=
  (Peer.approach "mower" Peer.genuine ++ Peer.provision (.response .changed)).dropLast ++
    Peer.deliver (Peer.post "rd" "mower") 6 ++ Peer.advance 0 4

/-- The history of that run, newest event first: the device is refused when
the only thing left to do is to record it. -/
private def RefusedBeforeRecorded (log : List Event) : Bool :=
  match log with
  | .recorded 0 "mower" :: .connectionStatus .. :: .ended 0 "mower" (.ok ()) ::
      .removalScheduled "mower" _ :: .resetDispatched "mower" _ _ :: .refused "mower" ::
      .answered channel token true _ :: before =>
    .started 0 "mower" ∈ before && .registered 0 .postBs token channel ∈ before
  | _ => false

/-- It ends up included, and reset. -/
theorem reset_after_final_ack :
    ∃ s, (serverMachine Peer.env).exec Machine.always Peer.server registerEarly = some s ∧
      "mower" ∈ s.boot.included ∧ ¬ EveryEvent (SparedAt (Failing s.core)) s.log := by
  obtain ⟨s, ran, reached, ends⟩ := (serverMachine Peer.env).exec_reaches Machine.always Peer.server
    registerEarly (fun s => decide ("mower" ∈ s.boot.included) && RefusedBeforeRecorded s.log)
    ⟨_, _, _, _, _, rfl⟩ (by decide +kernel)
  simp only [Bool.and_eq_true, decide_eq_true_eq] at ends
  obtain ⟨included, history⟩ := ends
  refine ⟨s, ran, included, fun every => ?_⟩
  unfold RefusedBeforeRecorded at history
  split at history
  · rename_i online addr addr' channel token code before log
    simp only [Bool.and_eq_true, decide_eq_true_eq] at history
    have returned : .ended 0 "mower" (.ok ()) ∈ s.log := by simp [log]
    rw [log] at every
    -- the phase has returned `Ok`, and nothing lies between the two packets
    rcases every.2.2.2.2.2.1 "mower" rfl 0 [] channel token code before rfl history.2 history.1 with
      failing | excluded
    · rcases failing with ⟨endpoint, e, ended⟩ | ⟨task, step, token', held, pc⟩
      · obtain ⟨task, held⟩ := reached_task reached returned rfl
        cases ((reached_placed reached held).once _ _ _ _ ended returned).2
      · exact (reached_placed reached held).not_ended (by rw [pc]; rfl) returned
    · cases excluded
  · cases history

end Lwm2mServer.RegistrationRace
