import Lwm2mServer.GatewaySteps
import Lwm2mServer.OnlineFlag

/-! What the subscribers of `connection_status` know. Turning the online flag
and telling the subscribers are two steps of one task, and a first registration
sets the flag without telling anybody; so the last event about an endpoint and
its flag can come apart. They agree as long as no event is sent after its
endpoint's flag was turned again, and no endpoint is registered anew that was
last reported offline. -/
namespace Lwm2mServer.ConnectionStatus
open Library DeviceRegistry DeviceSteps GatewaySteps OnlineFlag RegistryIndexes

/-! ## The events and the tasks that still owe one -/

/-- What an event tells about an endpoint. -/
def statusFor (endpoint : String) : Event → Option Bool
  | .connectionStatus reported online => if reported = endpoint then some online else none
  | _ => none

/-- The value the subscribers were given last. -/
def lastStatus (endpoint : String) (log : List Event) : Option Bool :=
  log.findSome? (statusFor endpoint)

/-- The event the receive loop is about to send. -/
def recvReport : Recv → Option (String × Bool)
  | .reportOnline endpoint _ _ => some (endpoint, true)
  | _ => none

def phaseReport (task : WritePhase) : Option (String × Bool) :=
  match task.pc with
  | .reportOnline => some (task.endpoint, true)
  | _ => none

def retransmissionReport (task : Retransmission) : Option (String × Bool) :=
  match task.pc with
  | .report endpoint => some (endpoint, false)
  | _ => none

def blockReport (task : BlockWrite) : Option (String × Bool) :=
  match task.pc with
  | .report endpoint => some (endpoint, false)
  | _ => none

/-- The event a task is about to send. -/
def reporting (g : Gateway) : Sender → Option (String × Bool)
  | .recv => recvReport g.server.recv
  | .phase i => (g.server.phases.get? i).bind phaseReport
  | .retransmission i => (g.retransmissions.get? i).bind retransmissionReport
  | .blockWrite i => (g.blockWrites.get? i).bind blockReport

/-- The tasks there are. -/
def senders (g : Gateway) : List Sender :=
  .recv :: (List.range g.server.phases.count).map .phase ++
    (List.range g.retransmissions.count).map .retransmission ++
    (List.range g.blockWrites.count).map .blockWrite

/-- The emissions still outstanding. -/
def outstanding (g : Gateway) : List (Sender × String × Bool) :=
  (senders g).filterMap fun sender => (reporting g sender).map (sender, ·)

/-- The task an action moves. -/
def mover : GatewayAction → Option Sender
  | .server (.recv _) => some .recv
  | .server (.phase i _) => some (.phase i)
  | .retransmit i _ => some (.retransmission i)
  | .blockWrite i _ => some (.blockWrite i)
  | _ => none

/-- A registration that is handled. -/
def joining (g : Gateway) : GatewayAction → Option (String × SocketAddr)
  | .server action => registering g.server action
  | _ => none

/-- An event that is sent gives its endpoint's present flag, or some other
task will still report that. -/
def SendsPresent (g : Gateway) (act : GatewayAction) : Prop :=
  ∀ sender ∈ mover act, ∀ report ∈ reporting g sender,
    ∀ online ∈ onlineOf g.server.devices report.1, online = some report.2 ∨
      ∃ other ∈ outstanding g, other.1 ≠ sender ∧ other.2.1 = report.1 ∧ online = some other.2.2

/-- An endpoint registered anew was not last reported offline, unless its
coming online is about to be reported. -/
def JoinsUnreported (g : Gateway) (act : GatewayAction) : Prop :=
  ∀ at_ ∈ joining g act, onlineOf g.server.devices at_.1 = none →
    lastStatus at_.1 g.server.log ≠ some false ∨
      ∃ other ∈ outstanding g, other.2 = (at_.1, true)

/-- The steps after which the subscribers are not left with a wrong value. -/
def Tells (g : Gateway) (act : GatewayAction) : Prop :=
  IdFree g act ∧ SendsPresent g act ∧ JoinsUnreported g act

instance (g : Gateway) (act : GatewayAction) : Decidable (SendsPresent g act) :=
  inferInstanceAs (Decidable (∀ sender ∈ mover act, _))

instance (g : Gateway) (act : GatewayAction) : Decidable (JoinsUnreported g act) :=
  inferInstanceAs (Decidable (∀ at_ ∈ joining g act, _))

instance (g : Gateway) (act : GatewayAction) : Decidable (Tells g act) :=
  inferInstanceAs (Decidable (_ ∧ _ ∧ _))

variable {env : Env} {s next : Server} {g g' : Gateway} {act : GatewayAction}

theorem mem_senders {sender : Sender} {report : String × Bool}
    (due : reporting g sender = some report) : sender ∈ senders g := by
  simp only [senders, List.mem_append, List.mem_cons, List.mem_map, List.mem_range]
  cases sender with
  | recv => exact Or.inl (Or.inl (Or.inl rfl))
  | phase i =>
    obtain ⟨task, held, -⟩ := Option.bind_eq_some_iff.mp due
    exact Or.inl (Or.inl (Or.inr ⟨i, Tasks.lt_count _ held, rfl⟩))
  | retransmission i =>
    obtain ⟨task, held, -⟩ := Option.bind_eq_some_iff.mp due
    exact Or.inl (Or.inr ⟨i, Tasks.lt_count _ held, rfl⟩)
  | blockWrite i =>
    obtain ⟨task, held, -⟩ := Option.bind_eq_some_iff.mp due
    exact Or.inr ⟨i, Tasks.lt_count _ held, rfl⟩

theorem mem_outstanding {sender : Sender} {report : String × Bool} :
    (sender, report) ∈ outstanding g ↔ reporting g sender = some report := by
  simp only [outstanding, List.mem_filterMap, Option.map_eq_some_iff, Prod.mk.injEq]
  constructor
  · rintro ⟨other, -, given, due, rfl, rfl⟩
    exact due
  · intro due
    exact ⟨sender, mem_senders due, report, due, rfl, rfl⟩

theorem lastStatus_silent {events earlier : List Event} {endpoint : String}
    (silent : ∀ event ∈ events, statusFor endpoint event = none) :
    lastStatus endpoint (events ++ earlier) = lastStatus endpoint earlier := by
  simp only [lastStatus, List.findSome?_append]
  rw [List.findSome?_eq_none_iff.mpr silent]
  rfl

/-! ## What a step of the server tells -/

/-- Nothing was told, and what was to be told still is. -/
structure Hushed (s next : Server) : Prop where
  told : ∀ endpoint, lastStatus endpoint next.log = lastStatus endpoint s.log
  recv : ∀ report, recvReport s.recv = some report → recvReport next.recv = some report
  phase : ∀ i report, (s.phases.get? i).bind phaseReport = some report →
    (next.phases.get? i).bind phaseReport = some report

theorem Hushed.refl (s : Server) : Hushed s s := ⟨fun _ => rfl, fun _ due => due, fun _ _ due => due⟩

private theorem hushed_same (log : ∀ endpoint, lastStatus endpoint next.log = lastStatus endpoint s.log)
    (silent : recvReport s.recv = none) (phases : next.phases = s.phases) : Hushed s next := by
  refine ⟨log, fun report due => ?_, fun i report due => ?_⟩
  · rw [silent] at due
    cases due
  · rwa [phases]

private theorem answer_log (s : Server) (op : Option PendingOperation) (result : LwM2mResult) :
    (s.answer op result).log = s.log ∧ (s.answer op result).phases = s.phases := by
  cases op <;> exact ⟨rfl, rfl⟩

theorem hushed_recv {choice : Choice} (silent : recvReport s.recv = none)
    (ran : s.recvStep env choice = some next) : Hushed s next := by
  have same (log : ∀ endpoint, lastStatus endpoint next.log = lastStatus endpoint s.log)
      (phases : next.phases = s.phases) : Hushed s next := hushed_same log silent phases
  cases position : s.recv with
  | reportOnline =>
    rw [position] at silent
    cases silent
  | acknowledge endpoint packet addr =>
    simp only [Server.recvStep, position] at ran
    split at ran
    · split at ran
      · cases ran
        exact same (fun _ => rfl) rfl
      · cases ran
        refine ⟨fun _ => rfl, fun report due => ?_, fun i report due => ?_⟩
        · rw [silent] at due
          cases due
        · obtain ⟨task, held, due⟩ := Option.bind_eq_some_iff.mp due
          have old : i ≠ s.phases.count := Nat.ne_of_lt (Tasks.lt_count _ held)
          simp only [Tasks.get?_spawn, old, if_false, held, Option.bind_some, due]
    · cases ran
      exact same (fun _ => rfl) rfl
  | touch | register | drain | findReporter | findVersions | mergeReport =>
    simp only [Server.recvStep, position] at ran
    obtain ⟨result, -, ran⟩ := Option.bind_eq_some_iff.mp ran
    cases ran
    exact same (fun _ => rfl) rfl
  | ackInFlight | rstInFlight =>
    simp only [Server.recvStep, position] at ran
    cases ran
    refine same (fun endpoint => ?_) ?_
    · rw [(answer_log _ _ _).1]
    · rw [(answer_log _ _ _).2]
  | begin | ackWrite | rstWrite | ackComplete | ackBlock | askIncluded | ackValidate =>
    simp only [Server.recvStep, position] at ran
    split at ran <;> cases ran <;> exact same (fun _ => rfl) rfl
  | _ =>
    simp only [Server.recvStep, position] at ran
    cases ran <;> exact same (fun _ => rfl) rfl

theorem hushed_phase {i : Nat} {choice : Choice}
    (silent : (s.phases.get? i).bind phaseReport = none)
    (ran : s.phaseStep env i choice = some next) : Hushed s next := by
  obtain ⟨task, held, ran⟩ := Option.bind_eq_some_iff.mp ran
  obtain ⟨outcome, moved, ran⟩ := Option.bind_eq_some_iff.mp ran
  cases ran
  rw [held, Option.bind_some] at silent
  refine ⟨fun endpoint => lastStatus_silent ?_, fun _ due => due, fun j report due => ?_⟩
  · have move := phase_move moved
    cases move with
    | reportOnline pc =>
      rw [phaseReport, pc] at silent
      cases silent
    | _ => simp [statusFor]
  · have other : j ≠ i := by
      rintro rfl
      rw [held, Option.bind_some, silent] at due
      cases due
    rwa [Tasks.get?_update _ held, if_neg other]

/-- The other steps leave the receive loop and the write phases alone. -/
theorem hushed_step {action : Action} (ran : s.step env action = some next)
    (recv : ∀ choice, action ≠ .recv choice) (phase : ∀ i choice, action ≠ .phase i choice)
    (offline : ∀ endpoint, action ≠ .client (.reportOffline endpoint)) : Hushed s next := by
  have elsewhere := elsewhere_step ran recv phase
  refine ⟨fun endpoint => ?_, fun report due => ?_, fun i report due => ?_⟩
  · obtain ⟨events, log, telling⟩ := elsewhere.log
    rw [log]
    refine lastStatus_silent fun event member => ?_
    cases event with
    | connectionStatus reported online =>
      obtain ⟨told, same⟩ := telling _ member rfl
      exact (offline told same).elim
    | _ => rfl
  · rcases elsewhere.recv with same | ⟨_, _, _, idle, _⟩
    · rwa [same]
    · rw [idle] at due
      cases due
  · rwa [elsewhere.phases]

/-! ## What a step of the gateway tells -/

/-- Nothing was told, and what was to be told still is. -/
structure Keeps (g g' : Gateway) : Prop where
  told : ∀ endpoint, lastStatus endpoint g'.server.log = lastStatus endpoint g.server.log
  due : ∀ sender report, reporting g sender = some report → reporting g' sender = some report

/-- What a step can do to the flags, to the events and to the tasks that owe
one. -/
inductive StatusMove (g : Gateway) (act : GatewayAction) (g' : Gateway) : Prop where
  | quiet (flags : KeepsOnline g.server.devices g'.server.devices) (keeps : Keeps g g')
  | turned (sender : Sender) (flags : SetsOnline g.server.devices g'.server.devices endpoint online)
      (keeps : Keeps g g') (owed : reporting g' sender = some (endpoint, online))
  | joined (joins : (endpoint, addr) ∈ joining g act)
      (unknown : onlineOf g.server.devices endpoint = none)
      (flags : SetsOnline g.server.devices g'.server.devices endpoint true) (keeps : Keeps g g')
  | sent (sender : Sender) (moves : mover act = some sender) (owed : reporting g sender = some (endpoint, online))
      (flags : g'.server.devices = g.server.devices)
      (told : g'.server.log = .connectionStatus endpoint online :: g.server.log)
      (due : ∀ other report, other ≠ sender → reporting g other = some report →
        reporting g' other = some report)

theorem keeps_of (hushed : Hushed g.server g'.server)
    (retransmissions : ∀ i report, reporting g (.retransmission i) = some report →
      reporting g' (.retransmission i) = some report)
    (blockWrites : ∀ i report, reporting g (.blockWrite i) = some report →
      reporting g' (.blockWrite i) = some report) : Keeps g g' := by
  refine ⟨hushed.told, fun sender report due => ?_⟩
  cases sender with
  | recv => exact hushed.recv report due
  | phase i => exact hushed.phase i report due
  | retransmission i => exact retransmissions i report due
  | blockWrite i => exact blockWrites i report due

/-- Nothing but the server changed. -/
private theorem keeps_server (hushed : Hushed g.server g'.server)
    (retransmissions : g'.retransmissions = g.retransmissions)
    (blockWrites : g'.blockWrites = g.blockWrites) : Keeps g g' := by
  refine keeps_of hushed (fun i report due => ?_) (fun i report due => ?_)
  · simpa only [reporting, retransmissions] using due
  · simpa only [reporting, blockWrites] using due

theorem registering_of_call {action : Action} {now : Instant} {endpoint : String}
    {addr : SocketAddr} {reg : Registration}
    (called : registryCall s action = some (.register now endpoint addr reg)) :
    (endpoint, addr) ∈ registering s action := by
  cases action with
  | recv choice =>
    cases position : s.recv with
    | register =>
      simp only [registryCall, position, Option.some.injEq, Op.register.injEq] at called
      obtain ⟨-, rfl, rfl, -⟩ := called
      simp [registering, position]
    | _ => simp [registryCall, position] at called
  | exclusion i =>
    obtain ⟨task, -, called⟩ := Option.bind_eq_some_iff.mp called
    split at called <;> cases called
  | removal i =>
    obtain ⟨task, -, called⟩ := Option.map_eq_some_iff.mp called
    cases called
  | housekeeping => cases tick : s.housekeeping <;> simp [registryCall, tick] at called
  | client call => cases call <;> cases called
  | _ => cases called

/-- The flags after a step of the server: its registry call says it. -/
theorem flags_step {action : Action} (sound : IndexesSound s.devices) (free : NewIdFree s action)
    (ran : s.step env action = some next) :
    KeepsOnline s.devices next.devices ∨
    (∃ endpoint online, (registryCall s action).bind (flips s.devices) = some (endpoint, online) ∧
      SetsOnline s.devices next.devices endpoint online) ∨
    (∃ endpoint addr, (endpoint, addr) ∈ registering s action ∧
      onlineOf s.devices endpoint = none ∧ SetsOnline s.devices next.devices endpoint true) := by
  have made := registry_step ran
  cases called : registryCall s action with
  | none =>
    rw [called] at made
    have same : s.devices = next.devices := Option.some.inj made
    rw [← same]
    exact Or.inl (.refl s.devices)
  | some op =>
    rw [called] at made
    have known : ∀ now endpoint addr reg, op = .register now endpoint addr reg →
        s.devices.byEndpoint.lookup endpoint = none → s.devices.byId.lookup s.devices.nextId = none := by
      rintro now endpoint addr reg rfl unknown
      exact free _ (registering_of_call called) unknown
    rcases online_apply sound known made with
      ⟨-, kept⟩ | ⟨endpoint, online, turned, set⟩ | ⟨now, endpoint, addr, reg, rfl, unknown, -, set⟩
    · exact Or.inl kept
    · exact Or.inr (Or.inl ⟨endpoint, online, turned, set⟩)
    · exact Or.inr (Or.inr ⟨endpoint, addr, registering_of_call called, by simp [onlineOf, unknown], set⟩)

private theorem afterRecv_tasks (g : Gateway) :
    g.afterRecv.retransmissions = g.retransmissions ∧ g.afterRecv.blockWrites = g.blockWrites := by
  unfold Gateway.afterRecv
  split
  · exact ⟨rfl, rfl⟩
  · exact ⟨rfl, rfl⟩
  · split <;> exact ⟨rfl, rfl⟩
  · exact ⟨rfl, rfl⟩

/-- The receive loop turns a flag only by `touch`, and goes on to report it. -/
private theorem recv_owes {choice : Choice} {endpoint : String} {online : Bool}
    (turned : (registryCall s (.recv choice)).bind (flips s.devices) = some (endpoint, online))
    (ran : s.recvStep env choice = some next) : recvReport next.recv = some (endpoint, online) := by
  cases position : s.recv with
  | touch packet addr =>
    simp only [Server.recvStep, position] at ran
    obtain ⟨⟨came, devices⟩, called, ran⟩ := Option.bind_eq_some_iff.mp ran
    cases ran
    simp only [registryCall, position, Option.bind_some, flips, called] at turned
    obtain ⟨given, rfl, equal⟩ := Option.map_eq_some_iff.mp turned
    cases equal
    rfl
  | _ =>
    simp only [registryCall, position] at turned
    cases turned

private theorem recv_status {choice : Choice} {server : Server}
    {armed : List (Sender × SendCall)} {transmissions : List (SendCall × UInt32)}
    (sound : IndexesSound g.server.devices)
    (free : NewIdFree g.server (.recv choice)) (ran : g.server.recvStep env choice = some server) :
    StatusMove g (.server (.recv choice)) { g.afterRecv with server, armed, transmissions } := by
  obtain ⟨sameRetransmissions, sameBlocks⟩ := afterRecv_tasks g
  cases owed : recvReport g.server.recv with
  | none =>
    have keeps : Keeps g { g.afterRecv with server, armed, transmissions } :=
      keeps_server (hushed_recv owed ran) sameRetransmissions sameBlocks
    rcases flags_step sound free ran with
      kept | ⟨endpoint, online, turned, set⟩ | ⟨endpoint, addr, joins, unknown, set⟩
    · exact .quiet kept keeps
    · exact .turned .recv set keeps (recv_owes turned ran)
    · exact .joined joins unknown set keeps
  | some report =>
    cases position : g.server.recv with
    | reportOnline endpoint packet addr =>
      simp only [Server.recvStep, position] at ran
      cases ran
      refine .sent .recv rfl ?_ rfl rfl ?_
      · rw [reporting, position]
        rfl
      · intro other told apart due
        cases other with
        | recv => exact (apart rfl).elim
        | phase i => exact due
        | retransmission i => simpa only [reporting, sameRetransmissions] using due
        | blockWrite i => simpa only [reporting, sameBlocks] using due
    | _ =>
      rw [position] at owed
      cases owed

private theorem phase_status {i : Nat} {choice : Choice} {server : Server}
    {armed : List (Sender × SendCall)} {transmissions : List (SendCall × UInt32)}
    (ran : g.server.phaseStep env i choice = some server) :
    StatusMove g (.server (.phase i choice)) { g with server, armed, transmissions } := by
  have stepped : g.server.step env (.phase i choice) = some server := ran
  have same : server.devices = g.server.devices := (Option.some.inj (registry_step stepped)).symm
  cases owed : (g.server.phases.get? i).bind phaseReport with
  | none =>
    refine .quiet ?_ (keeps_server (hushed_phase owed ran) rfl rfl)
    rw [same]
    exact .refl _
  | some report =>
    obtain ⟨task, held, ran⟩ := Option.bind_eq_some_iff.mp ran
    obtain ⟨outcome, moved, ran⟩ := Option.bind_eq_some_iff.mp ran
    cases ran
    rw [held, Option.bind_some] at owed
    cases position : task.pc with
    | reportOnline =>
      simp only [WritePhase.step, position] at moved
      cases moved
      refine .sent (.phase i) rfl ?_ rfl rfl ?_
      · simp only [reporting, held, Option.bind_some, phaseReport, position]
      · intro other told apart due
        cases other with
        | phase j =>
          have elsewhere : j ≠ i := fun same => apart (congrArg Sender.phase same)
          simpa only [reporting, Tasks.get?_update _ held, elsewhere, if_false] using due
        | _ => exact due
    | _ =>
      simp only [phaseReport, position] at owed
      cases owed

/-! The two kinds of tasks of `client.rs` report in the same way. -/

/-- A step of such a task: the event it owed before and owes after, and its
call. -/
inductive ClientTurn (s : Server) : Option (String × Bool) → Option (String × Bool) →
    Option ClientCall → Prop where
  | reports : ClientTurn s (some (endpoint, false)) later (some (.reportOffline endpoint))
  | marks (owes : later = (s.devices.setDeviceOffline s.clock addr).1.map fun endpoint =>
        (endpoint, false)) :
      ClientTurn s none later (some (.setDeviceOffline addr))
  | other (reports : ∀ endpoint, call ≠ some (.reportOffline endpoint))
      (marks : ∀ addr, call ≠ some (.setDeviceOffline addr)) : ClientTurn s none later call

theorem retransmission_turn {task : Retransmission} {choice : Choice}
    {outcome : ClientOutcome Retransmission} (moved : task.step s choice = some outcome) :
    ClientTurn s (retransmissionReport task) (retransmissionReport outcome.task) outcome.call := by
  unfold Retransmission.step at moved
  split at moved
  all_goals
    rename_i pc
    simp only [retransmissionReport, pc]
  · cases moved
    exact .other (by simp) (by simp)
  · obtain ⟨flying, -, moved⟩ := Option.bind_eq_some_iff.mp moved
    split at moved <;> cases moved <;> exact .other (by simp) (by simp)
  · cases moved
    exact .other (by simp) (by simp)
  · cases moved
    refine .marks ?_
    dsimp only
    cases (s.devices.setDeviceOffline s.clock task.addr).1 <;> rfl
  · cases moved
    exact .reports
  · cases moved

private theorem received_call (task : BlockWrite) (block : Block) (packet : Packet) :
    (task.received block packet).call = none := by
  unfold BlockWrite.received
  split
  · split <;> rfl
  · rfl
  · rfl

theorem blockWrite_turn {task : BlockWrite} {choice : Choice}
    {outcome : ClientOutcome BlockWrite} (moved : task.step env s choice = some outcome) :
    ClientTurn s (blockReport task) (blockReport outcome.task) outcome.call := by
  unfold BlockWrite.step at moved
  split at moved
  all_goals
    rename_i pc
    simp only [blockReport, pc]
  · -- the head of the loop
    split at moved
    · dsimp only at moved
      split at moved <;> cases moved <;> exact .other (by simp [BlockWrite.answered]) (by simp [BlockWrite.answered])
    · cases moved
      exact .other (by simp) (by simp)
  · cases moved
    exact .other (by simp) (by simp)
  · cases moved
    exact .other (by simp) (by simp)
  · -- waiting for the acknowledgement
    split at moved
    · cases moved
      exact .other (by simp [received_call]) (by simp [received_call])
    · cases moved
      exact .other (by simp [BlockWrite.answered]) (by simp [BlockWrite.answered])
    · split at moved <;> cases moved
      exact .other (by simp) (by simp)
  · dsimp only at moved
    split at moved <;> cases moved <;> exact .other (by simp) (by simp)
  · cases moved
    refine .marks ?_
    dsimp only
    cases (s.devices.setDeviceOffline s.clock task.addr).1 <;> rfl
  · cases moved
    exact .reports
  · cases moved

/-- A step of a client task, from how it reports. -/
theorem client_status (sender : Sender) {call : Option ClientCall}
    (sound : IndexesSound g.server.devices)
    (turn : ClientTurn g.server (reporting g sender) (reporting g' sender) call)
    (called : Gateway.call env g.server call = some g'.server) (moves : mover act = some sender)
    (retransmissions : ∀ i, .retransmission i ≠ sender →
      reporting g' (.retransmission i) = reporting g (.retransmission i))
    (blockWrites : ∀ i, .blockWrite i ≠ sender →
      reporting g' (.blockWrite i) = reporting g (.blockWrite i)) : StatusMove g act g' := by
  generalize before : reporting g sender = owed at turn
  generalize later : reporting g' sender = owes at turn
  have keeps (silent : reporting g sender = none) (hushed : Hushed g.server g'.server) : Keeps g g' := by
    have apart {other : Sender} {report : String × Bool} (due : reporting g other = some report) :
        other ≠ sender := by
      rintro rfl
      rw [silent] at due
      cases due
    refine keeps_of hushed (fun i report due => ?_) (fun i report due => ?_)
    · rw [retransmissions i (apart due), due]
    · rw [blockWrites i (apart due), due]
  have free (made : ClientCall) : NewIdFree g.server (.client made) := by
    intro at_ member
    cases member
  cases turn with
  | reports =>
    have same := Option.some.inj called
    refine .sent sender moves before ?_ ?_ fun other report apart due => ?_
    · rw [← same]
      rfl
    · rw [← same]
      rfl
    · cases other with
      | recv =>
        simp only [reporting, ← same]
        exact due
      | phase i =>
        simp only [reporting, ← same]
        exact due
      | retransmission i => rw [retransmissions i apart, due]
      | blockWrite i => rw [blockWrites i apart, due]
  | marks owes =>
    simp only [Gateway.call] at called
    have hushed := hushed_step called (by simp) (by simp) (by simp)
    rcases flags_step sound (free _) called with
      kept | ⟨endpoint, online, turned, set⟩ | ⟨endpoint, addr, joins, -, -⟩
    · exact .quiet kept (keeps before hushed)
    · refine .turned sender set (keeps before hushed) ?_
      rw [later, owes, ← turned]
      rfl
    · cases joins
  | other reports marks =>
    cases call with
    | none =>
      have same := Option.some.inj called
      refine .quiet ?_ (keeps before ?_)
      · rw [← same]
        exact .refl _
      · rw [← same]
        exact .refl _
    | some made =>
      simp only [Gateway.call] at called
      have hushed : Hushed g.server g'.server := by
        refine hushed_step called (by simp) (by simp) fun endpoint equal => ?_
        cases equal
        exact reports endpoint rfl
      rcases flags_step sound (free made) called with
        kept | ⟨endpoint, online, turned, set⟩ | ⟨endpoint, addr, joins, -, -⟩
      · exact .quiet kept (keeps before hushed)
      · cases made with
        | setDeviceOffline addr => exact (marks addr rfl).elim
        | _ => cases turned
      · cases joins

private theorem flips_quiet {action : Action} (recv : ∀ choice, action ≠ .recv choice)
    (offline : ∀ addr, action ≠ .client (.setDeviceOffline addr)) :
    (registryCall s action).bind (flips s.devices) = none := by
  cases action with
  | recv choice => exact (recv choice rfl).elim
  | exclusion i =>
    simp only [registryCall]
    cases s.exclusions.get? i with
    | none => rfl
    | some task =>
      rw [Option.bind_some]
      split <;> rfl
  | removal i =>
    simp only [registryCall]
    cases s.removals.get? i <;> rfl
  | housekeeping => cases tick : s.housekeeping <;> simp only [registryCall, tick] <;> rfl
  | client call =>
    cases call with
    | setDeviceOffline addr => exact (offline addr rfl).elim
    | _ => rfl
  | _ => rfl

/-- A step of the server that neither turns a flag nor tells. -/
private theorem quiet_status {action : Action} (sound : IndexesSound g.server.devices)
    (ran : g.server.step env action = some g'.server) (recv : ∀ choice, action ≠ .recv choice)
    (phase : ∀ i choice, action ≠ .phase i choice) (client : ∀ endpoint,
      action ≠ .client (.reportOffline endpoint))
    (offline : ∀ addr, action ≠ .client (.setDeviceOffline addr))
    (retransmissions : ∀ i report, reporting g (.retransmission i) = some report →
      reporting g' (.retransmission i) = some report)
    (blockWrites : ∀ i report, reporting g (.blockWrite i) = some report →
      reporting g' (.blockWrite i) = some report) : StatusMove g act g' := by
  have silent : registering g.server action = none := by
    cases action with
    | recv choice => exact (recv choice rfl).elim
    | _ => rfl
  have free : NewIdFree g.server action := by
    intro at_ member
    rw [silent] at member
    cases member
  refine .quiet ?_ (keeps_of (hushed_step ran recv phase client) retransmissions blockWrites)
  rcases flags_step sound free ran with kept | ⟨_, _, turned, -⟩ | ⟨_, _, joins, -, -⟩
  · exact kept
  · rw [flips_quiet recv offline] at turned
    cases turned
  · rw [silent] at joins
    cases joins

private theorem spawn_keeps {τ : Type} {tasks : Tasks τ} {report : τ → Option (String × Bool)} (task : τ)
    {i : Nat} {given : String × Bool} (due : (tasks.get? i).bind report = some given) :
    ((tasks.spawn task).get? i).bind report = some given := by
  obtain ⟨old, held, due⟩ := Option.bind_eq_some_iff.mp due
  have before : i ≠ tasks.count := Nat.ne_of_lt (Tasks.lt_count _ held)
  simp only [Tasks.get?_spawn, before, if_false, held, Option.bind_some, due]

/-- **What a step does to flags, events and outstanding emissions.** -/
theorem status_move (sound : IndexesSound g.server.devices) (free : IdFree g act)
    (ran : g.step env act = some g') : StatusMove g act g' := by
  have still (server : g'.server = g.server)
      (retransmissions : g'.retransmissions = g.retransmissions)
      (blockWrites : ∀ i report, reporting g (.blockWrite i) = some report →
        reporting g' (.blockWrite i) = some report) : StatusMove g act g' := by
    refine .quiet ?_ (keeps_of ?_ (fun i report due => ?_) blockWrites)
    · rw [server]
      exact .refl _
    · rw [server]
      exact .refl _
    · simpa only [reporting, retransmissions] using due
  cases gateway_move ran with
  | setClass => exact still rfl rfl fun _ _ due => due
  | ping => exact still rfl rfl fun _ _ due => due
  | request => exact still rfl rfl fun _ _ due => due
  | unsendable => exact still rfl rfl fun _ _ due => due
  | block => exact still rfl rfl fun _ _ due => spawn_keeps _ due
  | recv stepped => exact recv_status sound free stepped
  | phase stepped => exact phase_status stepped
  | receive stepped =>
    exact quiet_status sound stepped (by simp) (by simp) (by simp) (by simp)
      (fun _ _ due => due) fun _ _ due => due
  | housekeeping stepped =>
    exact quiet_status sound stepped (by simp) (by simp) (by simp) (by simp)
      (fun _ _ due => due) fun _ _ due => due
  | server quiet stepped =>
    refine quiet_status sound stepped ?_ ?_ ?_ ?_ (fun _ _ due => due) fun _ _ due => due
    all_goals
      intros
      rintro rfl
      cases quiet
  | single waiting stepped =>
    exact quiet_status sound stepped (by simp) (by simp) (by simp) (by simp)
      (fun _ _ due => spawn_keeps _ due) fun _ _ due => due
  | @retransmit i task choice outcome server armed transmissions held moved called =>
    have turn := retransmission_turn moved
    refine client_status (.retransmission i) sound ?_ called rfl (fun j apart => ?_) fun _ _ => rfl
    · simpa only [reporting, held, Tasks.get?_update _ held, if_true, Option.bind_some] using turn
    · have other : j ≠ i := fun same => apart (congrArg Sender.retransmission same)
      simp only [reporting, Tasks.get?_update _ held, other, if_false]
  | @blockWrite i task choice outcome server armed transmissions answers held moved called =>
    have turn := blockWrite_turn moved
    refine client_status (.blockWrite i) sound ?_ called rfl (fun _ _ => rfl) fun j apart => ?_
    · simpa only [reporting, held, Tasks.get?_update _ held, if_true, Option.bind_some] using turn
    · have other : j ≠ i := fun same => apart (congrArg Sender.blockWrite same)
      simp only [reporting, Tasks.get?_update _ held, other, if_false]

/-! ## The subscribers' view -/

/-- The last event about a registered endpoint gives its flag, or the flag is
still to be reported. -/
def Agrees (g : Gateway) : Prop :=
  ∀ endpoint online told, onlineOf g.server.devices endpoint = some online →
    lastStatus endpoint g.server.log = some told →
    online = some told ∨
      ∃ sender turned, online = some turned ∧ reporting g sender = some (endpoint, turned)

/-- The events are not touched, and this endpoint's flag is as it was. -/
theorem Agrees.carry {endpoint : String} {online : Option Bool} {told : Bool} (agrees : Agrees g)
    (keeps : Keeps g g') (flag : onlineOf g.server.devices endpoint = some online)
    (last : lastStatus endpoint g'.server.log = some told) :
    online = some told ∨
      ∃ sender turned, online = some turned ∧ reporting g' sender = some (endpoint, turned) := by
  rw [keeps.told] at last
  rcases agrees endpoint online told flag last with same | ⟨sender, turned, rfl, owed⟩
  · exact Or.inl same
  · exact Or.inr ⟨sender, turned, rfl, keeps.due sender _ owed⟩

theorem agrees_step (agrees : Agrees g) (tells : Tells g act) (move : StatusMove g act g') :
    Agrees g' := by
  obtain ⟨-, present, unreported⟩ := tells
  intro endpoint online told flag last
  cases move with
  | quiet flags keeps =>
    rcases flags endpoint with gone | same
    · rw [gone] at flag
      cases flag
    · exact agrees.carry keeps (same ▸ flag) last
  | @turned turnedEndpoint turnedOnline sender flags keeps owed =>
    by_cases same : endpoint = turnedEndpoint
    · subst same
      rw [flags.1] at flag
      cases flag
      exact Or.inr ⟨sender, turnedOnline, rfl, owed⟩
    · exact agrees.carry keeps (flags.2 endpoint same ▸ flag) last
  | @joined joinedEndpoint addr joins unknown flags keeps =>
    by_cases same : endpoint = joinedEndpoint
    · subst same
      rw [flags.1] at flag
      cases flag
      rcases unreported _ joins unknown with quiet | ⟨⟨sender, report⟩, member, rfl⟩
      · rw [keeps.told] at last
        cases told with
        | true => exact Or.inl rfl
        | false => exact (quiet last).elim
      · exact Or.inr ⟨sender, true, rfl, keeps.due sender _ (mem_outstanding.mp member)⟩
    · exact agrees.carry keeps (flags.2 endpoint same ▸ flag) last
  | @sent sentEndpoint sentOnline sender moves owed flags log due =>
    rw [flags] at flag
    rw [log] at last
    by_cases same : endpoint = sentEndpoint
    · subst same
      have given : sentOnline = told := by simpa [lastStatus, statusFor] using last
      subst given
      rcases present sender moves _ owed online flag with
        same | ⟨⟨other, reported, turned⟩, member, apart, rfl, rfl⟩
      · exact Or.inl same
      · exact Or.inr ⟨other, turned, rfl, due other _ apart (mem_outstanding.mp member)⟩
    · have before : lastStatus endpoint g.server.log = some told := by
        simpa [lastStatus, statusFor, Ne.symm same] using last
      rcases agrees endpoint online told flag before with equal | ⟨other, turned, rfl, owes⟩
      · exact Or.inl equal
      · have apart : other ≠ sender := by
          rintro rfl
          rw [owed] at owes
          cases owes
          exact same rfl
        exact Or.inr ⟨other, turned, rfl, due other _ apart owes⟩

theorem reached_agrees (reached : (Gateway.machine env).Reaches Tells g) :
    IndexesSound g.server.devices ∧ Agrees g := by
  refine reached.invariant (fun g => IndexesSound g.server.devices ∧ Agrees g)
    (fun g initial => ⟨start_sound initial, ?_⟩) ?_
  · obtain ⟨seed, serverUri, included, now, snapshots, clock, trafficClass, -, -, -, rfl⟩ := initial
    intro endpoint online told flag last
    cases last
  · rintro g act g' - ⟨sound, agrees⟩ tells ran
    exact ⟨sound_step sound tells.1 ran, agrees_step agrees tells (status_move sound tells.1 ran)⟩

/-- **Subscribers know the registry's flag.** While no event leaves after its
flag was turned again and no endpoint last reported offline is registered anew,
the last event about a registered endpoint gives its flag whenever none about
it is outstanding. -/
theorem reached_told_online (reached : (Gateway.machine env).Reaches Tells g) {endpoint : String}
    {id : UInt32} {dev : Device} {told : Bool}
    (settled : ∀ sender online, (sender, endpoint, online) ∉ outstanding g)
    (known : g.server.devices.byEndpoint.lookup endpoint = some id)
    (stored : g.server.devices.byId.lookup id = some dev)
    (last : lastStatus endpoint g.server.log = some told) : dev.online = some told := by
  have flag : onlineOf g.server.devices endpoint = some dev.online := by
    simp [onlineOf, known, stored]
  rcases (reached_agrees reached).2 endpoint _ told flag last with same | ⟨sender, turned, -, owed⟩
  · exact same
  · exact (settled sender turned (mem_outstanding.mpr owed)).elim

/-! ## A mower that does not answer -/

/-- The gateway with a mower that was included before. -/
def gateway : Gateway :=
  { server := .initial 0 (some "coaps://gateway") ["mower"] .new 0, trafficClass := 0 }

theorem start_gateway : (Gateway.machine Peer.env).start gateway :=
  ⟨0, some "coaps://gateway", ["mower"], 0, [], 0, 0, by decide, by simp, by simp, rfl⟩

/-- The mower registers. -/
def registers : List GatewayAction :=
  Peer.relay (Peer.post "rd" "mower") Peer.addr 2 ++
    .setClass .recv true :: List.replicate 2 (.server (.recv {}))

/-- A read for the mower cannot be sent, and the mower is reported offline. -/
def goesOffline : List GatewayAction :=
  registers ++ [.request Peer.addr (.read ⟨3, 0, 0⟩) false, .dispatch,
    .setClass (.retransmission 0) true, .retransmit 0 { sent := false }, .retransmit 0 {},
    .retransmit 0 {}]

/-- The device stored for an endpoint, what was told last about it, and that no
event is outstanding. -/
def seenOnline (endpoint : String) (id : UInt32) (told online : Bool) (g : Gateway) : Bool :=
  decide (g.server.devices.byEndpoint.lookup endpoint = some id) &&
    (g.server.devices.byId.lookup id).any (fun dev : Device => dev.online = some online) &&
    decide (lastStatus endpoint g.server.log = some told) && (outstanding g).isEmpty

theorem seenOnline_spec {endpoint : String} {id : UInt32} {told online : Bool}
    (seen : seenOnline endpoint id told online g = true) :
    ∃ dev, g.server.devices.byEndpoint.lookup endpoint = some id ∧
      g.server.devices.byId.lookup id = some dev ∧ dev.online = some online ∧
      lastStatus endpoint g.server.log = some told ∧ outstanding g = [] := by
  simp only [seenOnline, Bool.and_eq_true, decide_eq_true_eq, Option.any_eq_true,
    List.isEmpty_iff] at seen
  obtain ⟨⟨⟨known, dev, stored, flag⟩, last⟩, settled⟩ := seen
  exact ⟨dev, known, stored, flag, last, settled⟩

/-- A mower reported offline is heard again. -/
theorem heard_again_told_online :
    ∃ g dev, (Gateway.machine Peer.env).exec Tells gateway
        (goesOffline ++ Peer.relay (Peer.post "rd" "mower") Peer.addr 2) = some g ∧
      g.server.devices.byId.lookup 1 = some dev ∧ dev.online = some true ∧
      lastStatus "mower" g.server.log = some true := by
  obtain ⟨g, ran, reached, seen⟩ := (Gateway.machine Peer.env).exec_reaches Tells _
    (goesOffline ++ Peer.relay (Peer.post "rd" "mower") Peer.addr 2)
    (seenOnline "mower" 1 true true) start_gateway (by decide +kernel)
  obtain ⟨dev, known, stored, -, last, settled⟩ := seenOnline_spec seen
  have none (sender : Sender) (online : Bool) : (sender, "mower", online) ∉ outstanding g := by
    rw [settled]
    exact List.not_mem_nil
  exact ⟨g, dev, ran, stored, reached_told_online reached none known stored last, last⟩

/-- **The last event says offline, the flag says online**, and no event is
outstanding: a mower last reported offline expired and registered anew. -/
theorem registered_anew_untold :
    ∃ g endpoint id dev, (Gateway.machine Peer.env).Reaches Machine.always g ∧ outstanding g = [] ∧
      g.server.devices.byEndpoint.lookup endpoint = some id ∧
      g.server.devices.byId.lookup id = some dev ∧ dev.online = some true ∧
      lastStatus endpoint g.server.log = some false := by
  obtain ⟨g, -, reached, seen⟩ := (Gateway.machine Peer.env).exec_reaches Machine.always _
    (goesOffline ++ [.server (.advance (fromSecs 86431)), .server .housekeeping] ++ registers)
    (seenOnline "mower" 2 false true) start_gateway (by decide +kernel)
  obtain ⟨dev, known, stored, online, last, settled⟩ := seenOnline_spec seen
  exact ⟨g, "mower", 2, dev, reached, settled, known, stored, online, last⟩

end Lwm2mServer.ConnectionStatus
