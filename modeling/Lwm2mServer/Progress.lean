import Lwm2mServer.Library.Variants
import Lwm2mServer.RecvSteps
import Lwm2mServer.DeviceSteps

/-! Everything the server begins comes to an end: the handling of a packet, a
write phase, an exclusion, a delayed removal. Each of them has so many moves left
at each position, whatever the other tasks do in between, and until it is over it
can always move, if only when a timer runs out. The parser of link formats, the
check of certificates and the encryption of keys are taken to return, and the
dispatch channel to have room. -/
namespace Lwm2mServer.Progress
open Library DeviceRegistry DeviceSteps RegistryIndexes

variable {env : Env} {s next : Server} {action : Action} {choice : Choice} {i : Nat}

/-! ## The receive loop -/

def afterLeft : AfterResponse → Nat
  | .nothing => 0
  | .renew _ => 2
  | .report _ => 3
  | .deregister => 1
  | .decideInclusion _ => 3

def recvLeft : Recv → Nat
  | .idle => 0
  | .ackReject _ | .ackInFlight .. | .rstInFlight .. | .mergeReport .. | .drain _ | .deregister _
  | .scheduleRemoval .. | .sendGet .. | .acknowledge .. => 1
  | .ackValidate .. | .ackBlock .. | .rstBlock .. | .findVersions .. | .renew .. | .dispatchReset ..
  | .begin .. | .consume .. => 2
  | .ackComplete _ | .rstWrite .. | .findReporter .. | .askIncluded .. | .askCert .. => 3
  | .ackPending .. | .rstPending .. | .askApproved .. => 4
  | .ackWrite .. | .register .. | .announce .. => 5
  | .reportOnline .. => 6
  | .touch .. => 7
  | .respond _ _ rest => afterLeft rest + 1

theorem handle_left (packet : Packet) (addr : SocketAddr) :
    recvLeft (handlePacket env packet addr) ≤ 5 := by
  unfold handlePacket handlePost
  dsimp only
  repeat' split
  all_goals simp [recvLeft, afterLeft]

theorem resume_left (rest : AfterResponse) (addr : SocketAddr) :
    recvLeft (rest.resume addr) ≤ afterLeft rest := by
  cases rest with
  | report payload =>
    by_cases empty : payload = []
    · simp [AfterResponse.resume, empty, recvLeft]
    · simp [AfterResponse.resume, empty, recvLeft, afterLeft]
  | _ => exact Nat.le_refl _

private theorem answer_recv (s : Server) (op : Option PendingOperation) (result : LwM2mResult) :
    (s.answer op result).recv = s.recv := by
  cases op <;> rfl

theorem recv_lowers (ran : s.recvStep env choice = some next) :
    recvLeft next.recv < recvLeft s.recv := by
  cases position : s.recv with
  | idle =>
    simp only [Server.recvStep, position] at ran
    cases ran
  | touch packet addr =>
    simp only [Server.recvStep, position] at ran
    obtain ⟨⟨came, devices⟩, -, ran⟩ := Option.bind_eq_some_iff.mp ran
    cases ran
    cases came with
    | none => exact Nat.lt_of_le_of_lt (handle_left packet addr) (by simp [recvLeft])
    | some endpoint => simp [recvLeft]
  | reportOnline endpoint packet addr =>
    simp only [Server.recvStep, position] at ran
    cases ran
    exact Nat.lt_succ_of_le (handle_left packet addr)
  | respond response addr rest =>
    simp only [Server.recvStep, position] at ran
    cases ran
    dsimp only
    split
    · exact Nat.lt_succ_of_le (resume_left rest addr)
    · exact Nat.succ_pos _
  | register | drain | mergeReport =>
    simp only [Server.recvStep, position] at ran
    obtain ⟨result, -, ran⟩ := Option.bind_eq_some_iff.mp ran
    cases ran
    simp [recvLeft, afterLeft]
  | findReporter payload addr =>
    simp only [Server.recvStep, position] at ran
    obtain ⟨reporter, -, ran⟩ := Option.bind_eq_some_iff.mp ran
    cases ran
    cases reporter <;> simp [recvLeft]
  | findVersions payload addr =>
    simp only [Server.recvStep, position] at ran
    obtain ⟨versions, -, ran⟩ := Option.bind_eq_some_iff.mp ran
    cases ran
    dsimp only
    split <;> simp [recvLeft]
  | ackInFlight | rstInFlight =>
    simp only [Server.recvStep, position] at ran
    cases ran
    rw [answer_recv]
    simp [recvLeft]
  | begin | ackComplete | ackValidate | askIncluded | rstWrite | ackWrite | ackBlock =>
    simp only [Server.recvStep, position] at ran
    split at ran <;> cases ran <;> simp [recvLeft]
  | acknowledge =>
    simp only [Server.recvStep, position] at ran
    split at ran
    · split at ran <;> cases ran <;> simp [recvLeft]
    · cases ran
      simp [recvLeft]
  | askApproved | askCert | rstPending | ackPending =>
    simp only [Server.recvStep, position] at ran
    cases ran
    dsimp only
    split <;> simp [recvLeft]
  | _ =>
    simp only [Server.recvStep, position] at ran
    cases ran
    simp [recvLeft]

/-- In a registry with sound indexes no call of the registry that the loop makes
panics, and the loop waits for nothing else. -/
theorem recv_moves (resolve : IndexesResolve s.devices) (busy : s.recv ≠ .idle) :
    (s.recvStep env {}).isSome := by
  cases position : s.recv with
  | idle => exact absurd position busy
  | touch packet addr =>
    obtain ⟨came, devices, ran, -⟩ := quiet_touch resolve s.clock addr
    simp [Server.recvStep, position, ran]
  | register endpoint reg packet addr =>
    obtain ⟨result, ran, -⟩ := registered_register resolve s.clock endpoint addr reg
    simp [Server.recvStep, position, ran]
  | drain addr =>
    obtain ⟨ops, devices, ran, -⟩ := quiet_drainPending resolve addr
    simp [Server.recvStep, position, ran]
  | mergeReport report addr =>
    obtain ⟨state, devices, ran, -⟩ := quiet_mergeDeviceStateByAddr resolve addr report
    simp [Server.recvStep, position, ran]
  | findReporter payload addr | findVersions payload addr =>
    rcases byAddr_resolves resolve addr with missing | ⟨id, dev, found, held⟩
    · simp [Server.recvStep, position, endpointByAddr, objectVersionsByAddr, missing]
    · simp [Server.recvStep, position, endpointByAddr, objectVersionsByAddr, found, held]
  | begin | ackComplete | ackValidate | askIncluded | rstWrite | ackWrite | ackBlock =>
    simp only [Server.recvStep, position]
    split <;> rfl
  | acknowledge =>
    simp only [Server.recvStep, position]
    split
    · split <;> rfl
    · rfl
  | _ =>
    simp only [Server.recvStep, position]
    rfl

/-- What the loop spawns has everything before it. -/
theorem recv_spawns (ran : s.recvStep env choice = some next) :
    (next.phases = s.phases ∨
      ∃ task, next.phases = s.phases.spawn task ∧ task.pc = .alloc .deleteServer []) ∧
    (next.removals = s.removals ∨
      ∃ task, next.removals = s.removals.spawn task ∧ task.done = false) := by
  have answered (s : Server) (op : Option PendingOperation) (result : LwM2mResult) :
      (s.answer op result).phases = s.phases ∧ (s.answer op result).removals = s.removals := by
    cases op <;> exact ⟨rfl, rfl⟩
  have kept {next : Server} (phases : next.phases = s.phases) (removals : next.removals = s.removals) :
      (next.phases = s.phases ∨
        ∃ task, next.phases = s.phases.spawn task ∧ task.pc = .alloc .deleteServer []) ∧
      (next.removals = s.removals ∨
        ∃ task, next.removals = s.removals.spawn task ∧ task.done = false) :=
    ⟨Or.inl phases, Or.inl removals⟩
  cases position : s.recv with
  | idle =>
    simp only [Server.recvStep, position] at ran
    cases ran
  | acknowledge =>
    simp only [Server.recvStep, position] at ran
    split at ran
    · split at ran
      · cases ran
        exact kept rfl rfl
      · cases ran
        exact ⟨Or.inr ⟨_, rfl, rfl⟩, Or.inl rfl⟩
    · cases ran
      exact kept rfl rfl
  | scheduleRemoval =>
    simp only [Server.recvStep, position] at ran
    cases ran
    exact ⟨Or.inl rfl, Or.inr ⟨_, rfl, rfl⟩⟩
  | ackInFlight | rstInFlight =>
    simp only [Server.recvStep, position] at ran
    cases ran
    exact kept (answered ..).1 (answered ..).2
  | touch | register | drain | mergeReport | findReporter | findVersions =>
    simp only [Server.recvStep, position] at ran
    obtain ⟨_, -, ran⟩ := Option.bind_eq_some_iff.mp ran
    cases ran
    exact kept rfl rfl
  | begin | ackComplete | ackValidate | askIncluded | rstWrite | ackWrite | ackBlock =>
    simp only [Server.recvStep, position] at ran
    split at ran <;> cases ran <;> exact kept rfl rfl
  | _ =>
    simp only [Server.recvStep, position] at ran
    cases ran
    exact kept rfl rfl

/-! ## Write phases -/

def stepsAfter : WriteStep → Nat
  | .deleteServer => 4
  | .putServer => 3
  | .deleteSecurity => 2
  | .putSecurity => 1
  | .postBs => 0

/-- A request is sent `maxRetransmit + 1` times at most. -/
def phaseLeft : PhasePc → Nat
  | .getCert => 33
  | .encrypt _ => 32
  | .alloc step _ => 15 * stepsAfter step + 16
  | .register step _ _ => 15 * stepsAfter step + 15
  | .send step _ _ _ attempt => 15 * stepsAfter step + 6 + 2 * (maxRetransmit - attempt)
  | .wait step _ _ _ attempt => 15 * stepsAfter step + 5 + 2 * (maxRetransmit - attempt)
  | .cancel step _ => 15 * stepsAfter step + 4
  | .reportOnline => 3
  | .releaseId _ => 2
  | .mark => 1
  | .finished => 0

theorem phaseLeft_le (pc : PhasePc) : phaseLeft pc ≤ 76 := by
  have within (step : WriteStep) : stepsAfter step ≤ 4 := by cases step <;> simp [stepsAfter]
  cases pc with
  | alloc step | register step | cancel step =>
    have := within step
    simp only [phaseLeft]
    omega
  | send step _ _ _ attempt | wait step _ _ _ attempt =>
    have := within step
    simp only [phaseLeft, maxRetransmit]
    omega
  | _ => simp [phaseLeft]

theorem advanced_left (boot : BootstrapRegistry) (endpoint : String) (step : WriteStep) :
    phaseLeft (PhaseOutcome.advanced boot i endpoint step).pc ≤ 15 * stepsAfter step + 3 := by
  cases step <;> simp [PhaseOutcome.advanced, WriteStep.following, phaseLeft, stepsAfter]

theorem phase_lowers {boot : BootstrapRegistry} {task : WritePhase} {outcome : PhaseOutcome}
    (ran : task.step env boot i choice = some outcome) : phaseLeft outcome.pc < phaseLeft task.pc := by
  cases pc : task.pc with
  | alloc step security =>
    simp only [WritePhase.step, pc] at ran
    split at ran <;> cases ran
    · simp only [phaseLeft, PhaseOutcome.failed]
      omega
    · simp [phaseLeft]
  | getCert =>
    simp only [WritePhase.step, pc] at ran
    split at ran <;> cases ran <;> simp [phaseLeft, PhaseOutcome.failed]
  | encrypt payload =>
    simp only [WritePhase.step, pc] at ran
    split at ran
    · cases ran
      simp [phaseLeft, PhaseOutcome.failed]
    · split at ran <;> cases ran <;> simp [phaseLeft, PhaseOutcome.failed, stepsAfter]
  | register step token packet =>
    simp only [WritePhase.step, pc] at ran
    cases ran
    simp [phaseLeft, maxRetransmit]
  | send step token channel packet attempt =>
    simp only [WritePhase.step, pc] at ran
    split at ran <;> cases ran
    · simp only [phaseLeft]
      omega
    · simp only [phaseLeft, PhaseOutcome.failed]
      omega
  | wait step token channel packet attempt =>
    simp only [WritePhase.step, pc] at ran
    split at ran
    · cases ran
      have := advanced_left (i := i) boot task.endpoint step
      change _ < 15 * stepsAfter step + 5 + 2 * (maxRetransmit - attempt)
      omega
    · cases ran
      simp only [phaseLeft, PhaseOutcome.failed]
      omega
    · cases ran
      simp only [phaseLeft, PhaseOutcome.failed]
      omega
    · split at ran
      · split at ran <;> cases ran <;> simp only [phaseLeft] <;> omega
      · cases ran
  | cancel step token =>
    simp only [WritePhase.step, pc] at ran
    cases ran
    simp only [phaseLeft, PhaseOutcome.failed]
    omega
  | releaseId success =>
    simp only [WritePhase.step, pc] at ran
    cases ran
    cases success <;> simp [phaseLeft]
  | finished =>
    simp only [WritePhase.step, pc] at ran
    cases ran
  | _ =>
    simp only [WritePhase.step, pc] at ran
    cases ran
    simp [phaseLeft]

/-- A phase waits for the answer or the timer, and for nothing else. -/
theorem phase_moves {boot : BootstrapRegistry} {task : WritePhase} (goes : 0 < phaseLeft task.pc) :
    (task.step env boot i { timeout := true }).isSome := by
  cases pc : task.pc with
  | alloc step security =>
    simp only [WritePhase.step, pc]
    split <;> rfl
  | getCert =>
    simp only [WritePhase.step, pc]
    split <;> rfl
  | encrypt payload =>
    simp only [WritePhase.step, pc]
    split
    · rfl
    · split <;> rfl
  | wait step token channel packet attempt =>
    simp only [WritePhase.step, pc]
    split
    · rfl
    · rfl
    · rfl
    · rw [if_pos trivial]
      split <;> rfl
  | finished =>
    rw [pc] at goes
    exact absurd goes (Nat.lt_irrefl 0)
  | _ =>
    simp only [WritePhase.step, pc]
    rfl

/-! ## Exclusions and removals -/

def exclusionLeft : ExclusionPc → Nat
  | .findAddr => 5
  | .waitDevice _ => 4
  | .unmark _ => 3
  | .deregister _ => 2
  | .persist => 1
  | .finished => 0

def removalLeft (task : Removal) : Nat := if task.done then 0 else 1

/-- Everything a step of an exclusion does to the tasks. -/
theorem exclusion_step (ran : s.exclusionStep i = some next) :
    ∃ task changed, s.exclusions.get? i = some task ∧
      next.exclusions = s.exclusions.update i changed ∧
      exclusionLeft changed.pc < exclusionLeft task.pc ∧ next.removals = s.removals := by
  obtain ⟨task, held, ran⟩ := Option.bind_eq_some_iff.mp ran
  cases pc : task.pc with
  | findAddr =>
    simp only [pc] at ran
    obtain ⟨found, -, ran⟩ := Option.bind_eq_some_iff.mp ran
    cases found <;> cases ran <;> exact ⟨task, _, held, rfl, by simp [exclusionLeft, pc], rfl⟩
  | deregister addr =>
    simp only [pc] at ran
    cases addr <;> cases ran <;> exact ⟨task, _, held, rfl, by simp [exclusionLeft, pc], rfl⟩
  | finished =>
    simp only [pc] at ran
    cases ran
  | _ =>
    simp only [pc] at ran
    cases ran
    exact ⟨task, _, held, rfl, by simp [exclusionLeft, pc], rfl⟩

theorem exclusion_moves (resolve : IndexesResolve s.devices) {task : Exclusion}
    (held : s.exclusions.get? i = some task) (goes : 0 < exclusionLeft task.pc) :
    (s.exclusionStep i).isSome := by
  unfold Server.exclusionStep
  rw [held, Option.bind_eq_bind, Option.bind_some]
  cases pc : task.pc with
  | findAddr =>
    rcases byEndpoint_resolves resolve task.device with missing | ⟨id, dev, found, stored⟩
    · simp [addrAndIdByEndpoint, missing]
    · simp [addrAndIdByEndpoint, found, stored]
  | deregister addr =>
    cases addr <;> rfl
  | finished =>
    rw [pc] at goes
    exact absurd goes (Nat.lt_irrefl 0)
  | _ => rfl

theorem removal_step (ran : s.removalStep i = some next) :
    ∃ task changed, s.removals.get? i = some task ∧ next.removals = s.removals.update i changed ∧
      removalLeft changed < removalLeft task ∧ next.exclusions = s.exclusions := by
  obtain ⟨task, held, ran⟩ := Option.bind_eq_some_iff.mp ran
  split at ran
  · cases ran
  · rename_i pending
    cases ran
    refine ⟨task, _, held, rfl, ?_, rfl⟩
    have open_ : task.done ≠ true := fun done => pending (Or.inl done)
    simp [removalLeft, open_]

/-! ## All of them -/

inductive Worker where
  | recv
  | phase (id : Nat)
  | exclusion (id : Nat)
  | removal (id : Nat)

/-- Whose move an action is. -/
def moves : Worker → Action → Bool
  | .recv, .recv _ => true
  | .phase i, .phase j _ => i = j
  | .exclusion i, .exclusion j => i = j
  | .removal i, .removal j => i = j
  | _, _ => false

/-- A packet that arrives is work for the receive loop. -/
def given : Worker → Action → Nat
  | .recv, .receive (some _) _ => 7
  | _, _ => 0

def left (s : Server) : Worker → Nat
  | .recv => recvLeft s.recv
  | .phase i => s.phases.left (phaseLeft ·.pc) 76 i
  | .exclusion i => s.exclusions.left (exclusionLeft ·.pc) 5 i
  | .removal i => s.removals.left removalLeft 1 i

/-- The most it can have left. -/
def most : Worker → Nat
  | .recv => 7
  | .phase _ => 76
  | .exclusion _ => 5
  | .removal _ => 1

theorem left_le (s : Server) (worker : Worker) : left s worker ≤ most worker := by
  cases worker with
  | recv =>
    change recvLeft s.recv ≤ 7
    cases s.recv with
    | respond response addr rest => cases rest <;> simp [recvLeft, afterLeft]
    | _ => simp [recvLeft]
  | phase i =>
    change ((s.phases.get? i).map (phaseLeft ·.pc)).getD 76 ≤ 76
    cases s.phases.get? i with
    | none => exact Nat.le_refl _
    | some task => exact phaseLeft_le task.pc
  | exclusion i =>
    change ((s.exclusions.get? i).map (exclusionLeft ·.pc)).getD 5 ≤ 5
    cases s.exclusions.get? i with
    | none => exact Nat.le_refl _
    | some task =>
      change exclusionLeft task.pc ≤ 5
      cases task.pc <;> simp [exclusionLeft]
  | removal i =>
    change ((s.removals.get? i).map removalLeft).getD 1 ≤ 1
    cases s.removals.get? i with
    | none => exact Nat.le_refl _
    | some task =>
      change removalLeft task ≤ 1
      unfold removalLeft
      split <;> simp

/-- The steps that touch exclusions or removals. -/
def tends : Action → Bool
  | .recv _ | .excludeDevice _ | .exclusion _ | .removal _ => true
  | _ => false

theorem tables_kept (ran : s.step env action = some next) (calm : tends action = false) :
    next.exclusions = s.exclusions ∧ next.removals = s.removals := by
  cases action with
  | recv | excludeDevice | exclusion | removal => cases calm
  | receive packet addr =>
    simp only [Server.step] at ran
    split at ran <;> cases ran <;> exact ⟨rfl, rfl⟩
  | phase j choice =>
    obtain ⟨task, -, ran⟩ := Option.bind_eq_some_iff.mp ran
    obtain ⟨outcome, -, ran⟩ := Option.bind_eq_some_iff.mp ran
    cases ran
    exact ⟨rfl, rfl⟩
  | includeDevice id =>
    cases ran
    unfold Server.includeStep
    split <;> exact ⟨rfl, rfl⟩
  | housekeeping =>
    cases ran
    unfold Server.housekeepingStep
    split <;> exact ⟨rfl, rfl⟩
  | client made =>
    cases ran
    cases made with
    | completeInFlight addr token =>
      unfold Server.clientStep Server.answer
      dsimp only
      split <;> exact ⟨rfl, rfl⟩
    | _ => exact ⟨rfl, rfl⟩
  | advance nanos =>
    cases ran
    exact ⟨rfl, rfl⟩

theorem recv_variant : (soundServer env).Variant (moves .recv) (given .recv) (left · .recv) where
  lowers := by
    intro s action next own ran
    change s.step env action = some next at ran
    cases action with
    | recv choice => exact recv_lowers ran
    | _ => cases own
  others := by
    intro s action next other ran
    change s.step env action = some next at ran
    cases action with
    | recv choice => cases other
    | receive packet addr =>
      simp only [Server.step] at ran
      split at ran
      · cases ran
        exact Nat.le_add_left ..
      · cases ran
        exact Nat.le_add_right ..
      · cases ran
    | phase j choice =>
      obtain ⟨task, -, ran⟩ := Option.bind_eq_some_iff.mp ran
      obtain ⟨outcome, -, ran⟩ := Option.bind_eq_some_iff.mp ran
      cases ran
      exact Nat.le_add_right ..
    | _ =>
      have elsewhere := elsewhere_step ran (by rintro _ ⟨⟩) (by rintro _ _ ⟨⟩)
      rcases elsewhere.recv with kept | ⟨_, _, ⟨⟩, _⟩
      change recvLeft next.recv ≤ recvLeft s.recv + _
      rw [kept]
      exact Nat.le_add_right ..

theorem phase_variant (i : Nat) :
    (soundServer env).Variant (moves (.phase i)) (given (.phase i)) (left · (.phase i)) where
  lowers := by
    intro s action next own ran
    change s.step env action = some next at ran
    cases action with
    | phase j choice =>
      cases of_decide_eq_true own
      obtain ⟨task, held, ran⟩ := Option.bind_eq_some_iff.mp ran
      obtain ⟨outcome, moved, ran⟩ := Option.bind_eq_some_iff.mp ran
      cases ran
      exact Tasks.left_update_lt held (phase_lowers moved)
    | _ => cases own
  others := by
    intro s action next other ran
    change s.step env action = some next at ran
    cases action with
    | phase j choice =>
      obtain ⟨task, held, ran⟩ := Option.bind_eq_some_iff.mp ran
      obtain ⟨outcome, -, ran⟩ := Option.bind_eq_some_iff.mp ran
      cases ran
      exact Nat.le_of_eq (Tasks.left_update_other held (of_decide_eq_false other))
    | recv choice =>
      rcases (recv_spawns ran).1 with kept | ⟨task, spawned, pc⟩
      · simp only [left, kept]
        exact Nat.le_add_right ..
      · simp only [left, spawned]
        rw [Tasks.left_spawn (by rw [pc]; rfl)]
        exact Nat.le_add_right ..
    | _ =>
      have elsewhere := elsewhere_step ran (by rintro _ ⟨⟩) (by rintro _ _ ⟨⟩)
      simp only [left, elsewhere.phases]
      exact Nat.le_add_right ..

theorem exclusion_variant (i : Nat) :
    (soundServer env).Variant (moves (.exclusion i)) (given (.exclusion i)) (left · (.exclusion i)) where
  lowers := by
    intro s action next own ran
    change s.step env action = some next at ran
    cases action with
    | exclusion j =>
      cases of_decide_eq_true own
      obtain ⟨task, changed, held, stored, lower, -⟩ := exclusion_step ran
      simp only [left, stored]
      exact Tasks.left_update_lt held lower
    | _ => cases own
  others := by
    intro s action next other ran
    change s.step env action = some next at ran
    cases action with
    | exclusion j =>
      obtain ⟨task, changed, held, stored, -, -⟩ := exclusion_step ran
      simp only [left, stored]
      exact Nat.le_of_eq (Tasks.left_update_other held (of_decide_eq_false other))
    | excludeDevice device =>
      cases ran
      exact Nat.le_of_eq (Tasks.left_spawn rfl)
    | removal j =>
      obtain ⟨-, -, -, -, -, kept⟩ := removal_step ran
      simp only [left, kept]
      exact Nat.le_add_right ..
    | recv choice =>
      simp only [left, (RecvSteps.recvStep_frame ran).2]
      exact Nat.le_add_right ..
    | _ =>
      have kept := (tables_kept ran rfl).1
      simp only [left, kept]
      exact Nat.le_add_right ..

theorem removal_variant (i : Nat) :
    (soundServer env).Variant (moves (.removal i)) (given (.removal i)) (left · (.removal i)) where
  lowers := by
    intro s action next own ran
    change s.step env action = some next at ran
    cases action with
    | removal j =>
      cases of_decide_eq_true own
      obtain ⟨task, changed, held, stored, lower, -⟩ := removal_step ran
      simp only [left, stored]
      exact Tasks.left_update_lt held lower
    | _ => cases own
  others := by
    intro s action next other ran
    change s.step env action = some next at ran
    cases action with
    | removal j =>
      obtain ⟨task, changed, held, stored, -, -⟩ := removal_step ran
      simp only [left, stored]
      exact Nat.le_of_eq (Tasks.left_update_other held (of_decide_eq_false other))
    | excludeDevice device =>
      cases ran
      exact Nat.le_add_right ..
    | exclusion j =>
      obtain ⟨-, -, -, -, -, kept⟩ := exclusion_step ran
      simp only [left, kept]
      exact Nat.le_add_right ..
    | recv choice =>
      rcases (recv_spawns ran).2 with kept | ⟨task, spawned, pending⟩
      · simp only [left, kept]
        exact Nat.le_add_right ..
      · simp only [left, spawned]
        rw [Tasks.left_spawn (by simp [removalLeft, pending])]
        exact Nat.le_add_right ..
    | _ =>
      have kept := (tables_kept ran rfl).2
      simp only [left, kept]
      exact Nat.le_add_right ..

theorem variant (worker : Worker) :
    (soundServer env).Variant (moves worker) (given worker) (left · worker) := by
  cases worker with
  | recv => exact recv_variant
  | phase i => exact phase_variant i
  | exclusion i => exact exclusion_variant i
  | removal i => exact removal_variant i

/-- At work. A removal is at work once its delay is over. -/
def Works (s : Server) : Worker → Prop
  | .recv => s.recv ≠ .idle
  | .phase i => ∃ task, s.phases.get? i = some task ∧ 0 < phaseLeft task.pc
  | .exclusion i => ∃ task, s.exclusions.get? i = some task ∧ 0 < exclusionLeft task.pc
  | .removal i => ∃ task, s.removals.get? i = some task ∧ task.done = false ∧ task.due ≤ s.clock

theorem can_move (resolve : IndexesResolve s.devices) {worker : Worker} (works : Works s worker) :
    ∃ action, moves worker action = true ∧ (s.step env action).isSome := by
  cases worker with
  | recv => exact ⟨.recv {}, rfl, recv_moves resolve works⟩
  | phase i =>
    obtain ⟨task, held, goes⟩ := works
    refine ⟨.phase i { timeout := true }, decide_eq_true rfl, ?_⟩
    obtain ⟨outcome, moved⟩ : ∃ outcome, task.step env s.boot i { timeout := true } = some outcome :=
      Option.isSome_iff_exists.mp (phase_moves goes)
    simp [Server.step, Server.phaseStep, held, moved]
  | exclusion i =>
    obtain ⟨task, held, goes⟩ := works
    exact ⟨.exclusion i, decide_eq_true rfl, exclusion_moves resolve held goes⟩
  | removal i =>
    obtain ⟨task, held, pending, due⟩ := works
    refine ⟨.removal i, decide_eq_true rfl, ?_⟩
    simp [Server.step, Server.removalStep, held, pending, due]

theorem reached_resolve (reached : (soundServer env).Reaches NewIdFree s) :
    IndexesResolve s.devices := by
  suffices sound : IndexesSound s.devices from sound.resolve
  refine reached.invariant (fun s => IndexesSound s.devices) (fun s initial => start_indexes initial) ?_
  intro s action next _ sound free ran
  exact indexes_step sound free ran

/-- **Everything the server begins ends.** From any state that is reached, however
the tasks take turns, the receive loop makes seven moves for each packet that
arrives and a task no more than it has from the start; and as long as it is at work
it can move. -/
theorem work_ends {s' : Server} {actions : List Action}
    (reached : (soundServer env).Reaches NewIdFree s)
    (path : (soundServer env).Path NewIdFree s actions s') (worker : Worker) :
    actions.countP (moves worker) ≤ most worker + (actions.map (given worker)).sum ∧
      (Works s' worker → ∃ action, moves worker action = true ∧ (s'.step env action).isSome) := by
  constructor
  · have bounds := (variant worker).bounds path
    have most := left_le s worker
    omega
  · exact can_move (reached_resolve (path.reaches reached))

/-- A packet is being handled. -/
theorem work_ends_post : ∃ s', (soundServer Peer.env).Path NewIdFree Peer.server
      [.receive (some (Peer.post "rd" "mower")) Peer.addr, .recv {}, .recv {}] s' ∧
    Works s' .recv ∧ ∃ action, moves .recv action = true ∧ (s'.step Peer.env action).isSome := by
  have start : (soundServer Peer.env).start Peer.server :=
    ⟨0, some "coaps://gateway", [], 0, [], 0, by simp, by simp, rfl⟩
  obtain ⟨s', ran, -, busy⟩ := (soundServer Peer.env).exec_reaches NewIdFree Peer.server
    [.receive (some (Peer.post "rd" "mower")) Peer.addr, .recv {}, .recv {}]
    (fun s => decide (0 < recvLeft s.recv)) start (by decide +kernel)
  have path := Machine.path_of_exec ran
  have works : Works s' .recv := by
    intro idle
    rw [idle] at busy
    cases busy
  exact ⟨s', path, works, (work_ends (.start start) path .recv).2 works⟩

end Lwm2mServer.Progress
