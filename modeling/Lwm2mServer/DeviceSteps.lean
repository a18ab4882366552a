import Lwm2mServer.RegistryIndexes
import Lwm2mServer.Transitions

/-! What one step of the server can do to the device registry and to the tasks
that remove devices from it, said once. A registration goes through four
positions of the receive loop before its endpoint is left alone or its removal
is scheduled; exclusions and scheduled removals then act on a remembered
address. `device_move` is the inversion every property of these tasks is
proved from. -/
namespace Lwm2mServer.DeviceSteps
open Library DeviceRegistry RegistryIndexes

/-- The registration the receive loop is about to decide on, or has decided to
undo. -/
def target : Recv → Option (String × SocketAddr)
  | .respond _ addr (.decideInclusion endpoint) => some (endpoint, addr)
  | .askIncluded endpoint addr | .dispatchReset endpoint addr
  | .scheduleRemoval endpoint addr => some (endpoint, addr)
  | _ => none

/-- The tasks that remove a device by an address they remember. -/
def removes : Action → Bool
  | .exclusion _ | .removal _ => true
  | _ => false

/-- Everything a step can do to devices, exclusions, removals and the included
set. -/
inductive DeviceMove (s : Server) : Action → Server → Prop where
  | register {id : UInt32} (position : s.recv = .register endpoint reg packet addr)
      (registered : Registered s.devices s.clock endpoint addr reg (id, devices)) :
      DeviceMove s (.recv choice)
        { s with devices, recv := .respond response addr (.decideInclusion endpoint) }
  | decide (position : s.recv = .respond response addr (.decideInclusion endpoint)) :
      DeviceMove s (.recv choice) { s with recv := .askIncluded endpoint addr }
  | refuse (position : s.recv = .askIncluded endpoint addr) (absent : endpoint ∉ s.boot.included) :
      DeviceMove s (.recv choice) { s with recv := .dispatchReset endpoint addr, log }
  | reset (position : s.recv = .dispatchReset endpoint addr) :
      DeviceMove s (.recv choice) { s with recv := .scheduleRemoval endpoint addr, log }
  | schedule (position : s.recv = .scheduleRemoval endpoint addr) :
      DeviceMove s (.recv choice)
        { s with
          recv := .idle
          removals := s.removals.spawn ⟨endpoint, addr, s.clock + Server.removalDelay, false⟩
          log }
  | remove (held : s.removals.get? i = some task) (pending : task.done = false)
      (due : task.due ≤ s.clock) :
      DeviceMove s (.removal i)
        { s with
          devices := (s.devices.removeByAddr task.addr).2.2
          removals := s.removals.update i { task with done := true }
          replies }
  | mark (held : s.phases.get? i = some task) (pc : task.pc = .mark) :
      DeviceMove s (.phase i choice)
        { s with
          boot := { s.boot with included := insert task.endpoint s.boot.included }
          phases := s.phases.update i { task with pc := .finished }
          log }
  | exclude : DeviceMove s (.excludeDevice device)
      { s with exclusions := s.exclusions.spawn ⟨device, .findAddr⟩ }
  | missing (held : s.exclusions.get? i = some task) (pc : task.pc = .findAddr)
      (absent : s.devices.byEndpoint.lookup task.device = none) :
      DeviceMove s (.exclusion i)
        { s with exclusions := s.exclusions.update i { task with pc := .unmark none } }
  | found {id : UInt32} (held : s.exclusions.get? i = some task) (pc : task.pc = .findAddr)
      (known : s.devices.byEndpoint.lookup task.device = some id)
      (stored : s.devices.byId.lookup id = some dev) :
      DeviceMove s (.exclusion i)
        { s with exclusions := s.exclusions.update i { task with pc := .waitDevice dev.addr } }
  | waited (held : s.exclusions.get? i = some task) (pc : task.pc = .waitDevice addr) :
      DeviceMove s (.exclusion i)
        { s with exclusions := s.exclusions.update i { task with pc := .unmark (some addr) } }
  | unmark (held : s.exclusions.get? i = some task) (pc : task.pc = .unmark remembered) :
      DeviceMove s (.exclusion i)
        { s with
          boot := { s.boot with included := s.boot.included.erase task.device }
          exclusions := s.exclusions.update i { task with pc := .deregister remembered }
          log }
  | skip (held : s.exclusions.get? i = some task) (pc : task.pc = .deregister none) :
      DeviceMove s (.exclusion i)
        { s with exclusions := s.exclusions.update i { task with pc := .persist } }
  | deregister (held : s.exclusions.get? i = some task) (pc : task.pc = .deregister (some addr)) :
      DeviceMove s (.exclusion i)
        { s with
          devices := (s.devices.removeByAddr addr).2.2
          exclusions := s.exclusions.update i { task with pc := .persist }
          replies }
  | finish (held : s.exclusions.get? i = some task) (pc : task.pc = .persist) :
      DeviceMove s (.exclusion i)
        { s with exclusions := s.exclusions.update i { task with pc := .finished } }
  | other (elsewhere : removes action = false) (quiet : Quiet s.devices devices)
      (neutral : recv = s.recv ∨ target recv = none) (included : boot.included = s.boot.included) :
      DeviceMove s action
        { s with boot, devices, blockAcks, blockChannels, recv, phases, housekeeping, clock
                 replies, log }

variable {env : Env} {s next : Server} {action : Action} {choice : Choice}

/-- A step that changes only what the properties here do not speak of. -/
private theorem other_of (quiet : Quiet s.devices next.devices)
    (neutral : next.recv = s.recv ∨ target next.recv = none)
    (included : next.boot.included = s.boot.included) (exclusions : next.exclusions = s.exclusions)
    (removals : next.removals = s.removals) (elsewhere : removes action = false := by rfl) :
    DeviceMove s action next := by
  have moved : DeviceMove s action
      { s with
        boot := next.boot, devices := next.devices, blockAcks := next.blockAcks
        blockChannels := next.blockChannels, recv := next.recv, phases := next.phases
        housekeeping := next.housekeeping, clock := next.clock, replies := next.replies
        log := next.log } := .other elsewhere quiet neutral included
  rw [← exclusions, ← removals] at moved
  exact moved

private theorem answer_frame (s : Server) (op : Option PendingOperation) (result : LwM2mResult) :
    ∃ replies, s.answer op result = { s with replies } := by
  cases op with
  | none => exact ⟨s.replies, rfl⟩
  | some op => exact ⟨_, rfl⟩

private theorem resume_neutral (rest : AfterResponse) (addr : SocketAddr) :
    target (rest.resume addr) = none ∨ ∃ endpoint, rest = .decideInclusion endpoint := by
  cases rest with
  | decideInclusion endpoint => exact Or.inr ⟨endpoint, rfl⟩
  | report payload =>
    refine Or.inl ?_
    simp only [AfterResponse.resume]
    split <;> rfl
  | _ => exact Or.inl rfl

private theorem handlePacket_neutral (env : Env) (packet : Packet) (addr : SocketAddr) :
    target (handlePacket env packet addr) = none := by
  refine handlePacket_cases (fun recv => target recv = none) env packet addr rfl
    (fun response rest other => ?_) (fun _ => rfl) (fun _ _ => rfl) rfl rfl
  cases rest with
  | decideInclusion endpoint => exact (other endpoint rfl).elim
  | _ => rfl

private theorem recv_move (resolve : IndexesResolve s.devices)
    (ran : s.recvStep env choice = some next) : DeviceMove s (.recv choice) next := by
  cases position : s.recv with
  | register endpoint reg packet addr =>
    simp only [Server.recvStep, position] at ran
    obtain ⟨⟨id, devices⟩, called, ran⟩ := Option.bind_eq_some_iff.mp ran
    cases ran
    obtain ⟨result, same, registered⟩ :=
      registered_register resolve s.clock endpoint addr reg
    rw [called] at same
    cases same
    exact .register position registered
  | respond response addr rest =>
    simp only [Server.recvStep, position] at ran
    cases ran
    by_cases sent : Server.sends env response choice
    · simp only [sent, if_true]
      rcases resume_neutral rest addr with neutral | ⟨endpoint, rfl⟩
      · exact other_of (.refl _) (.inr neutral) rfl rfl rfl
      · exact .decide position
    · simp only [sent]
      exact other_of (.refl _) (.inr rfl) rfl rfl rfl
  | askIncluded endpoint addr =>
    simp only [Server.recvStep, position] at ran
    split at ran
    · cases ran
      exact other_of (.refl _) (.inr rfl) rfl rfl rfl
    · rename_i absent
      cases ran
      exact .refuse position fun member => absent (decide_eq_true member)
  | dispatchReset endpoint addr =>
    simp only [Server.recvStep, position] at ran
    cases ran
    exact .reset position
  | scheduleRemoval endpoint addr =>
    simp only [Server.recvStep, position] at ran
    cases ran
    exact .schedule position
  | touch packet addr =>
    simp only [Server.recvStep, position] at ran
    obtain ⟨came, touched, called, quiet⟩ := quiet_touch resolve s.clock addr
    rw [called] at ran
    cases ran
    refine other_of quiet (.inr ?_) rfl rfl rfl
    dsimp only
    split
    · rfl
    · exact handlePacket_neutral env packet addr
  | reportOnline endpoint packet addr =>
    simp only [Server.recvStep, position] at ran
    cases ran
    exact other_of (.refl _) (.inr (handlePacket_neutral env packet addr)) rfl rfl rfl
  | announce endpoint packet addr =>
    simp only [Server.recvStep, position] at ran
    cases ran
    refine other_of (.refl _) (.inr rfl) ?_ rfl rfl
    simp only [BootstrapRegistry.ensureIncludableId]
    split <;> rfl
  | askApproved endpoint packet addr =>
    simp only [Server.recvStep, position] at ran
    cases ran
    refine other_of (.refl _) (.inr ?_) rfl rfl rfl
    dsimp only
    split <;> rfl
  | acknowledge endpoint packet addr =>
    simp only [Server.recvStep, position] at ran
    split at ran
    · split at ran <;> cases ran <;> exact other_of (.refl _) (.inr rfl) rfl rfl rfl
    · cases ran
      exact other_of (.refl _) (.inr rfl) rfl rfl rfl
  | askCert endpoint addr =>
    simp only [Server.recvStep, position] at ran
    cases ran
    refine other_of (.refl _) (.inr ?_) rfl rfl rfl
    dsimp only
    split <;> rfl
  | begin endpoint addr =>
    simp only [Server.recvStep, position, BootstrapRegistry.begin] at ran
    by_cases busy : (s.boot.byEndpoint.lookup endpoint).isSome
    · simp only [busy, if_true] at ran
      cases ran
      exact other_of (.refl _) (.inr rfl) rfl rfl rfl
    · simp only [busy] at ran
      cases ran
      exact other_of (.refl _) (.inr rfl) rfl rfl rfl
  | renew newLifetime addr =>
    simp only [Server.recvStep, position] at ran
    cases ran
    exact other_of (quiet_changeByAddr addr _ fun _ => ⟨rfl, rfl, rfl⟩) (.inr rfl) rfl rfl rfl
  | drain addr =>
    simp only [Server.recvStep, position] at ran
    obtain ⟨ops, drained, called, quiet⟩ := quiet_drainPending resolve addr
    rw [called] at ran
    cases ran
    exact other_of quiet (.inr rfl) rfl rfl rfl
  | findReporter payload addr =>
    simp only [Server.recvStep, position] at ran
    obtain ⟨endpoint, -, ran⟩ := Option.bind_eq_some_iff.mp ran
    cases ran
    refine other_of (.refl _) (.inr ?_) rfl rfl rfl
    cases endpoint <;> rfl
  | findVersions payload addr =>
    simp only [Server.recvStep, position] at ran
    obtain ⟨versions, -, ran⟩ := Option.bind_eq_some_iff.mp ran
    cases ran
    refine other_of (.refl _) (.inr ?_) rfl rfl rfl
    dsimp only
    split <;> rfl
  | mergeReport report addr =>
    simp only [Server.recvStep, position] at ran
    obtain ⟨state, merged, called, quiet⟩ := quiet_mergeDeviceStateByAddr resolve addr report
    rw [called] at ran
    cases ran
    exact other_of quiet (.inr rfl) rfl rfl rfl
  | deregister addr =>
    simp only [Server.recvStep, position] at ran
    cases ran
    exact other_of (quiet_removeByAddr resolve addr) (.inr rfl) rfl rfl rfl
  | ackWrite packet addr =>
    simp only [Server.recvStep, position, BootstrapRegistry.completeWriteAck] at ran
    cases held : s.boot.writeAcks.lookup (tokenArray packet.token) <;>
      simp only [held] at ran <;> cases ran <;> exact other_of (.refl _) (.inr rfl) rfl rfl rfl
  | ackPending packet addr =>
    simp only [Server.recvStep, position] at ran
    cases ran
    refine other_of (.refl _) (.inr ?_) rfl rfl rfl
    dsimp only
    split <;> rfl
  | ackComplete packet =>
    simp only [Server.recvStep, position, BootstrapRegistry.complete] at ran
    cases held : s.boot.byToken.lookup (tokenArray packet.token) <;>
      simp only [held] at ran <;> cases ran <;> exact other_of (.refl _) (.inr rfl) rfl rfl rfl
  | ackValidate endpoint payload =>
    simp only [Server.recvStep, position] at ran
    split at ran <;> cases ran <;> exact other_of (.refl _) (.inr rfl) rfl rfl rfl
  | ackBlock packet addr =>
    simp only [Server.recvStep, position] at ran
    split at ran <;> cases ran <;> exact other_of (.refl _) (.inr rfl) rfl rfl rfl
  | ackInFlight packet addr =>
    simp only [Server.recvStep, position] at ran
    cases ran
    obtain ⟨replies, answered⟩ := answer_frame
      { s with devices := (s.devices.completeInFlight addr (tokenArray packet.token)).2, recv := .idle }
      (s.devices.completeInFlight addr (tokenArray packet.token)).1 (coapResponseToResult packet)
    rw [answered]
    exact other_of (quiet_completeInFlight addr _) (.inr rfl) rfl rfl rfl
  | rstPending packet addr =>
    simp only [Server.recvStep, position] at ran
    cases ran
    refine other_of (.refl _) (.inr ?_) rfl rfl rfl
    dsimp only
    split <;> rfl
  | rstWrite packet addr =>
    simp only [Server.recvStep, position, BootstrapRegistry.completeWriteAck] at ran
    cases held : s.boot.writeAcks.lookup (tokenArray packet.token) <;>
      simp only [held] at ran <;> cases ran <;> exact other_of (.refl _) (.inr rfl) rfl rfl rfl
  | rstInFlight packet addr =>
    simp only [Server.recvStep, position] at ran
    cases ran
    obtain ⟨replies, answered⟩ := answer_frame
      { s with devices := (s.devices.completeInFlight addr (tokenArray packet.token)).2, recv := .idle }
      (s.devices.completeInFlight addr (tokenArray packet.token)).1 (.error (.coapError 5 0))
    rw [answered]
    exact other_of (quiet_completeInFlight addr _) (.inr rfl) rfl rfl rfl
  | idle =>
    simp only [Server.recvStep, position] at ran
    cases ran
  | _ =>
    simp only [Server.recvStep, position] at ran
    cases ran
    exact other_of (.refl _) (.inr rfl) rfl rfl rfl

private theorem exclusion_move {id : Nat} (resolve : IndexesResolve s.devices)
    (ran : s.exclusionStep id = some next) : DeviceMove s (.exclusion id) next := by
  unfold Server.exclusionStep at ran
  obtain ⟨task, held, ran⟩ := Option.bind_eq_some_iff.mp ran
  dsimp only at ran
  split at ran
  · rename_i pc
    rcases byEndpoint_resolves resolve task.device with missing | ⟨devId, dev, known, stored⟩
    · rw [addrAndIdByEndpoint, missing] at ran
      cases ran
      exact .missing held pc missing
    · rw [addrAndIdByEndpoint, known] at ran
      simp only [stored] at ran
      cases ran
      exact .found held pc known stored
  · rename_i pc
    cases ran
    exact .waited held pc
  · rename_i pc
    cases ran
    exact .unmark held pc
  · rename_i pc
    cases ran
    exact .skip held pc
  · rename_i pc
    cases ran
    exact .deregister held pc
  · rename_i pc
    cases ran
    exact .finish held pc
  · cases ran

/-- **Every step is one of these moves.** -/
theorem device_move (resolve : IndexesResolve s.devices) (ran : s.step env action = some next) :
    DeviceMove s action next := by
  cases action with
  | receive packet addr =>
    simp only [Server.step] at ran
    split at ran <;> cases ran
    · exact other_of (.refl _) (.inr rfl) rfl rfl rfl
    · exact other_of (.refl _) (.inl rfl) rfl rfl rfl
  | recv choice => exact recv_move resolve ran
  | phase id choice =>
    obtain ⟨task, held, ran⟩ := Option.bind_eq_some_iff.mp ran
    obtain ⟨outcome, moved, ran⟩ := Option.bind_eq_some_iff.mp ran
    cases ran
    cases phase_move moved with
    | mark pc => exact .mark held pc
    | _ => exact other_of (.refl _) (.inl rfl) rfl rfl rfl
  | includeDevice id =>
    cases ran
    simp only [Server.includeStep, BootstrapRegistry.approveInclusion]
    cases s.boot.includableById.lookup id <;> exact other_of (.refl _) (.inl rfl) rfl rfl rfl
  | excludeDevice device =>
    cases ran
    exact .exclude
  | exclusion id => exact exclusion_move resolve ran
  | removal id =>
    simp only [Server.step, Server.removalStep] at ran
    obtain ⟨task, held, ran⟩ := Option.bind_eq_some_iff.mp ran
    split at ran
    · cases ran
    · rename_i ready
      cases ran
      simp only [not_or, Bool.not_eq_true, Nat.not_lt] at ready
      exact .remove held ready.1 ready.2
  | housekeeping =>
    cases ran
    simp only [Server.housekeepingStep]
    split
    · exact other_of (quiet_expireStale ..) (.inl rfl) rfl rfl rfl
    · exact other_of (quiet_mapVals _ fun _ _ => ⟨rfl, rfl, rfl⟩) (.inl rfl) rfl rfl rfl
    · obtain ⟨byToken, byEndpoint, expired⟩ :=
        s.boot.expireStale_fields s.clock Housekeeping.bootstrapTimeoutSecs
      rw [expired]
      exact other_of (.refl _) (.inl rfl) rfl rfl rfl
    · exact other_of (quiet_takePingCandidates ..) (.inl rfl) rfl rfl rfl
  | client call =>
    cases ran
    cases call with
    | placeInFlight addr token op =>
      exact other_of (quiet_changeByAddr addr _ fun _ => ⟨rfl, rfl, rfl⟩) (.inl rfl) rfl rfl rfl
    | completeInFlight addr token =>
      obtain ⟨replies, answered⟩ := answer_frame
        { s with devices := (s.devices.completeInFlight addr token).2 }
        (s.devices.completeInFlight addr token).1 (.error .timeout)
      simp only [Server.clientStep, answered]
      exact other_of (quiet_completeInFlight addr token) (.inl rfl) rfl rfl rfl
    | setDeviceOffline addr =>
      exact other_of (quiet_setDeviceOffline s.clock addr) (.inl rfl) rfl rfl rfl
    | _ => exact other_of (.refl _) (.inl rfl) rfl rfl rfl
  | advance nanos =>
    cases ran
    exact other_of (.refl _) (.inl rfl) rfl rfl rfl

/-! ## Runs from a sound registry -/

/-- The endpoint and the address a step registers. -/
def registering (s : Server) : Action → Option (String × SocketAddr)
  | .recv _ =>
    match s.recv with
    | .register endpoint _ _ addr => some (endpoint, addr)
    | _ => none
  | _ => none

/-- The endpoint a step marks as included. -/
def marking (s : Server) : Action → Option String
  | .phase i _ => (s.phases.get? i).bind fun task =>
    match task.pc with
    | .mark => some task.endpoint
    | _ => none
  | _ => none

/-- A new endpoint is given an id that is not in use. -/
def NewIdFree (s : Server) (action : Action) : Prop :=
  ∀ at_ ∈ registering s action, s.devices.byEndpoint.lookup at_.1 = none →
    s.devices.byId.lookup s.devices.nextId = none

instance (s : Server) (action : Action) : Decidable (NewIdFree s action) :=
  inferInstanceAs (Decidable (∀ at_ ∈ registering s action, _ → _))

/-- The server started from persisted devices with distinct ids and endpoints. -/
def soundServer (env : Env) : Machine Server Action where
  start s := ∃ seed serverUri included now snapshots clock,
    (snapshots.map (·.id)).Nodup ∧ (snapshots.map (·.endpoint)).Nodup ∧
      s = Server.initial seed serverUri included (DeviceRegistry.new.restore now snapshots) clock
  step := Server.step env

theorem start_indexes (initial : (soundServer env).start s) : IndexesSound s.devices := by
  obtain ⟨seed, serverUri, included, now, snapshots, clock, ids, endpoints, rfl⟩ := initial
  exact indexes_restore now snapshots indexes_new ids endpoints fun s _ => by simp [new]

theorem indexes_step (sound : IndexesSound s.devices) (free : NewIdFree s action)
    (ran : s.step env action = some next) : IndexesSound next.devices := by
  cases device_move sound.resolve ran with
  | register position registered =>
    refine indexes_registered sound registered fun unknown => ?_
    exact free (_, _) (by rw [registering, position]; rfl) unknown
  | remove held => exact indexes_quiet sound (quiet_removeByAddr sound.resolve _)
  | deregister held => exact indexes_quiet sound (quiet_removeByAddr sound.resolve _)
  | other _ quiet => exact indexes_quiet sound quiet
  | _ => exact sound

end Lwm2mServer.DeviceSteps
