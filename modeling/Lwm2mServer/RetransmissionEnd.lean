import Lwm2mServer.DeviceRecords
import Lwm2mServer.OperationIds

/-! How a retransmission task ends. The task holds an address and a token, not
the operation: it looks whether something is in flight at the address under the
token, after the last attempt takes what is there and answers it with a timeout,
and marks the device at the address as offline. Each of these is a lookup of its
own, so what becomes of the operation depends on what the address leads to at
that moment. A send that fails ends the task without a look at the operation. -/
namespace Lwm2mServer.RetransmissionEnd
open Library DeviceRecords DeviceRegistry GatewaySteps InFlight OperationIds

/-- What is written down about the task of an operation: the device that the
address led to when the operation was put in flight, the operation's response
channel, and what the task has done. -/
structure Watch where
  device : Option UInt32
  channel : Nat
  timedOut : Bool := false
  marked : Bool := false

/-- The gateway, with a record for each retransmission task. -/
structure Watched where
  gateway : Gateway
  watches : Tasks Watch := {}

/-- The registered device an address leads to. -/
def deviceAt (r : DeviceRegistry) (addr : SocketAddr) : Option UInt32 :=
  (r.byAddr.lookup addr).filter fun id => (r.byId.lookup id).isSome

/-- Something is in flight at a device under a token. -/
def flies (r : DeviceRegistry) (id : UInt32) (token : Token) : Bool :=
  (r.byId.lookup id).any fun dev => (dev.inFlight.lookup token).isSome

/-- Writes that go out block by block. -/
def large : LwM2mCommand → Bool
  | .write _ value _ => decide (Client.blockThreshold < value.length)
  | _ => false

/-- The operation that `dispatch_op` puts in flight next, with its address. -/
def placing (env : Env) (g : Gateway) : Option (SocketAddr × PendingOperation) :=
  g.queue.head?.filter fun entry => !large entry.2.command &&
    (env.toBytes (Client.buildRequest entry.2.command (tokenOfId entry.2.id) g.midCounter)).toBool

/-- The record after a step of its task. -/
def Watch.after (watch : Watch) (g : Gateway) (task : Retransmission) : Watch :=
  match task.pc with
  | .giveUp =>
    { watch with
      timedOut := (g.server.devices.completeInFlight task.addr task.token).1.any fun op =>
        decide (op.responseTx = watch.channel) }
  | .markOffline => { watch with marked := true }
  | _ => watch

def observe (env : Env) (w : Watched) : GatewayAction → Tasks Watch
  | .dispatch =>
    match placing env w.gateway with
    | some (addr, op) =>
      w.watches.spawn { device := deviceAt w.gateway.server.devices addr, channel := op.responseTx }
    | none => w.watches
  | .retransmit i _ =>
    match w.gateway.retransmissions.get? i, w.watches.get? i with
    | some task, some watch => w.watches.update i (watch.after w.gateway task)
    | _, _ => w.watches
  | _ => w.watches

def machine (env : Env) : Machine Watched GatewayAction where
  start w := (Gateway.machine env).start w.gateway ∧ w.watches = {}
  step w act := (w.gateway.step env act).map fun gateway => ⟨gateway, observe env w act⟩

/-- Where the task of an operation that was put in flight at a registered device
has ended, the operation is in flight nowhere, and the task has marked the
device as offline if and only if it has answered the operation with a timeout. -/
def Settled (w : Watched) : Prop :=
  ∀ i task watch device, w.gateway.retransmissions.get? i = some task →
    w.watches.get? i = some watch → watch.device = some device → task.pc = .ended →
    (∀ place op, Holds w.gateway.server.devices place op → op.responseTx ≠ watch.channel) ∧
      (watch.marked = true ↔ watch.timedOut = true)

/-! ## When a task does what it should -/

/-- The task has not got to marking the device as offline. -/
def running : RetransmitPc → Bool
  | .send | .check | .giveUp => true
  | _ => false

/-- Among the devices that have something in flight under the task's token, the
address leads to the one the operation was sent to and to no other. -/
def Leads (g : Gateway) (task : Retransmission) (device : UInt32) : Prop :=
  ∀ id ∈ g.server.devices.byId.keys, flies g.server.devices id task.token = true →
    (g.server.devices.byAddr.lookup task.addr = some id ↔ id = device)

instance (g : Gateway) (task : Retransmission) (device : UInt32) : Decidable (Leads g task device) :=
  List.decidableBAll _ _

/-- A send succeeds, the address leads to the operation when the task looks, and
the operation is still in flight when the task takes it. -/
def Undisturbed (g : Gateway) (task : Retransmission) (choice : Choice) (device : UInt32) : Prop :=
  (task.pc = .send → choice.sent = true) ∧ (task.pc = .check → Leads g task device) ∧
    (task.pc = .giveUp → Leads g task device ∧ flies g.server.devices device task.token = true)

instance (g : Gateway) (task : Retransmission) (choice : Choice) (device : UInt32) :
    Decidable (Undisturbed g task choice device) :=
  inferInstanceAs (Decidable ((_ → _) ∧ (_ → Leads _ _ _) ∧ (_ → Leads _ _ _ ∧ _)))

/-- An operation does not go to the device of a running task under the task's
token. -/
def Apart (g : Gateway) (entry : SocketAddr × PendingOperation) (task : Retransmission)
    (device : UInt32) : Prop :=
  running task.pc = true → g.server.devices.byAddr.lookup entry.1 = some device →
    task.token ≠ tokenOfId entry.2.id

instance (g : Gateway) (entry : SocketAddr × PendingOperation) (task : Retransmission)
    (device : UInt32) : Decidable (Apart g entry task device) :=
  inferInstanceAs (Decidable (_ → _ → _))

/-- The device of a record, if there is one, has a property. Not all ids are
tried to decide it. -/
instance (priority := 2000) decidableForallDevice (device : Option UInt32) {holds : UInt32 → Prop}
    [DecidablePred holds] : Decidable (∀ id ∈ device, holds id) :=
  Option.decidableForallMem device

/-- The tasks are undisturbed, and no operation is put in flight at a device
under the token of one whose task is still running. -/
def Guarded (env : Env) (w : Watched) : GatewayAction → Prop
  | .dispatch => ∀ entry ∈ placing env w.gateway, ∀ i < w.watches.count,
      ∀ task ∈ w.gateway.retransmissions.get? i, ∀ watch ∈ w.watches.get? i,
      ∀ device ∈ watch.device, Apart w.gateway entry task device
  | .retransmit i choice => ∀ task ∈ w.gateway.retransmissions.get? i, ∀ watch ∈ w.watches.get? i,
      ∀ device ∈ watch.device, Undisturbed w.gateway task choice device
  | _ => True

instance (env : Env) (w : Watched) : ∀ act, Decidable (Guarded env w act)
  | .dispatch => inferInstanceAs (Decidable (∀ entry ∈ _, ∀ i < _, ∀ task ∈ _, ∀ watch ∈ _,
      ∀ device ∈ _, Apart _ _ _ _))
  | .retransmit _ _ =>
    inferInstanceAs (Decidable (∀ task ∈ _, ∀ watch ∈ _, ∀ device ∈ _, Undisturbed _ _ _ _))
  | .setClass .. | .server _ | .ping | .request .. | .blockWrite .. => isTrue trivial

/-! ## The operations in flight -/

section Flights
variable {r r' : DeviceRegistry} {call : Op} {place : UInt32 × Token} {op stored : PendingOperation}
  {addr : SocketAddr} {token : Token}

private theorem lookup_deviceAfter {dev : Device} {id : UInt32}
    (entry : (deviceAfter r id dev call).inFlight.lookup token = some op) :
    dev.inFlight.lookup token = some op ∨
      ∃ addr, call = .placeInFlight addr token op ∧ r.byAddr.lookup addr = some id := by
  cases call with
  | placeInFlight addr key stored =>
    simp only [deviceAfter] at entry
    split at entry
    · rename_i found
      rw [Table.lookup_insert_if] at entry
      split at entry
      · rename_i same
        cases entry
        exact Or.inr ⟨addr, by rw [same], found⟩
      · exact Or.inl entry
    · exact Or.inl entry
  | completeInFlight addr key =>
    simp only [deviceAfter] at entry
    split at entry
    · rw [Table.lookup_erase_if] at entry
      split at entry
      · cases entry
      · exact Or.inl entry
    · exact Or.inl entry
  | timeoutInFlight now maxSecs => exact Or.inl (Table.lookup_of_filterVals entry)
  | touch now addr =>
    left
    simp only [deviceAfter] at entry
    split at entry
    · split at entry <;> exact entry
    · exact entry
  | register | renewRegistration | setDeviceOffline | takePingCandidates | drainPending
  | mergeDeviceStateByAddr | restoreDeviceState =>
    left
    simp only [deviceAfter] at entry
    split at entry <;> exact entry
  | _ => exact Or.inl entry

/-- An operation stays where it is put. -/
theorem holds_apply (ran : r.apply call = some r') (holds : Holds r' place op) :
    Holds r place op ∨
      ∃ addr, call = .placeInFlight addr place.2 op ∧ r.byAddr.lookup addr = some place.1 := by
  obtain ⟨found, there, entry⟩ := holds
  rcases apply_device ran there with ⟨dev, before, rfl⟩ | ⟨now, endpoint, addr, reg, -, -, -, rfl⟩
  · rcases lookup_deviceAfter entry with old | new
    · exact Or.inl ⟨dev, before, old⟩
    · exact Or.inr new
  · cases entry

/-- What is in flight where an operation was just put is that operation. -/
theorem holds_placed (found : r.byAddr.lookup addr = some place.1)
    (holds : Holds (r.placeInFlight addr place.2 stored) place op) : op = stored := by
  obtain ⟨after, there, entry⟩ := holds
  have ran : r.apply (.placeInFlight addr place.2 stored) = some (r.placeInFlight addr place.2 stored) :=
    rfl
  rcases apply_device ran there with ⟨dev, -, rfl⟩ | ⟨_, _, _, _, other, -⟩
  · simp only [deviceAfter, if_pos found, Table.lookup_insert_if] at entry
    rw [if_pos trivial] at entry
    exact (Option.some.inj entry).symm
  · cases other

/-- What was taken is gone. -/
theorem not_holds_completed (found : r.byAddr.lookup addr = some place.1) :
    ¬Holds (r.completeInFlight addr place.2).2 place op := by
  rintro ⟨after, there, entry⟩
  have ran : r.apply (.completeInFlight addr place.2) = some (r.completeInFlight addr place.2).2 := rfl
  rcases apply_device ran there with ⟨dev, -, rfl⟩ | ⟨_, _, _, _, other, -⟩
  · simp only [deviceAfter, if_pos found, Table.lookup_erase_if] at entry
    rw [if_pos trivial] at entry
    cases entry
  · cases other

theorem flies_iff {id : UInt32} : flies r id token = true ↔ ∃ op, Holds r (id, token) op := by
  rw [flies, Option.any_eq_true]
  constructor
  · rintro ⟨dev, held, found⟩
    obtain ⟨op, entry⟩ := Option.isSome_iff_exists.mp found
    exact ⟨op, dev, held, entry⟩
  · rintro ⟨op, dev, held, entry⟩
    exact ⟨dev, held, by rw [entry]; rfl⟩

end Flights

/-! ## Steps of the gateway -/

/-- The response channels of the operations that wait for the dispatch task. -/
def waiting (g : Gateway) : List Nat := g.queue.map (·.2.responseTx)

variable {env : Env} {g g' : Gateway} {act : GatewayAction} {place : UInt32 × Token}
  {op : PendingOperation} {w w' : Watched} {i : Nat} {task : Retransmission} {watch : Watch}
  {device : UInt32} {choice : Choice} {outcome : ClientOutcome Retransmission}

/-- The operation in front leaves the queue without being put in flight. -/
structure Skipped (env : Env) (g g' : Gateway) : Prop where
  placing : placing env g = none
  queue : ∃ entry, g.queue = entry :: g'.queue
  channels : g'.channels = g.channels
  server : g'.server = g.server
  tasks : g'.retransmissions = g.retransmissions

/-- The operation in front is put in flight and handed to a task. -/
structure Placed (env : Env) (g g' : Gateway) (addr : SocketAddr) (op : PendingOperation)
    (task : Retransmission) : Prop where
  placing : placing env g = some (addr, op)
  queue : g.queue = (addr, op) :: g'.queue
  channels : g'.channels = g.channels
  devices : g'.server.devices = g.server.devices.placeInFlight addr (tokenOfId op.id)
    { op with attempts := op.attempts + 1 }
  tasks : g'.retransmissions = g.retransmissions.spawn task
  token : task.token = tokenOfId op.id
  pc : task.pc = .send

theorem large_eq_false {command : LwM2mCommand}
    (small : ∀ path value format, command = .write path value format →
      value.length ≤ Client.blockThreshold) : large command = false := by
  cases command with
  | write path value format => exact decide_eq_false (Nat.not_lt.mpr (small _ _ _ rfl))
  | _ => rfl

theorem dispatch_cases (ran : g.step env .dispatch = some g') :
    Skipped env g g' ∨ ∃ addr op task, Placed env g g' addr op task := by
  cases dispatch_move ran with
  | block front command long =>
    refine Or.inl ⟨?_, ⟨_, front⟩, rfl, rfl, rfl⟩
    simp [placing, front, large, command, long]
  | unsendable front small failed =>
    refine Or.inl ⟨?_, ⟨_, front⟩, rfl, rfl, rfl⟩
    simp [placing, front, large_eq_false small, failed, Except.toBool]
  | single front small encoded placed =>
    cases placed
    refine Or.inr ⟨_, _, _, ?_, front, rfl, rfl, rfl, rfl, rfl⟩
    simp [placing, front, large_eq_false small, encoded, Except.toBool]

private theorem afterRecv_waiting (tidy : Tidy g.server.devices.byId) :
    (waiting g.afterRecv = waiting g ∧ g.afterRecv.channels = g.channels) ∨
      (waiting g.afterRecv = waiting g ++ [g.channels] ∧ g.channels < g.afterRecv.channels) := by
  unfold Gateway.afterRecv
  split
  · refine Or.inr ⟨?_, Nat.lt_succ_self _⟩
    simp [waiting, Gateway.enqueue, PendingOperation.new]
  · refine Or.inl ⟨?_, rfl⟩
    dsimp only [waiting]
    rw [drainPending_empty tidy]
    simp
  · split <;> exact Or.inl ⟨rfl, rfl⟩
  · exact Or.inl ⟨rfl, rfl⟩

/-- An operation that joins the queue has a new channel. -/
private theorem waiting_step (tidy : Tidy g.server.devices.byId) (other : act ≠ .dispatch)
    (ran : g.step env act = some g') :
    (waiting g' = waiting g ∧ g'.channels = g.channels) ∨
      (waiting g' = waiting g ++ [g.channels] ∧ g.channels < g'.channels) := by
  by_cases asks : ∃ addr command firstAck, act = .request addr command firstAck
  · obtain ⟨addr, command, firstAck, rfl⟩ := asks
    cases ran
    refine Or.inr ⟨?_, Nat.lt_add_of_pos_right Nat.two_pos⟩
    simp [waiting, PendingOperation.new]
  · cases gateway_move ran with
    | recv stepped => exact afterRecv_waiting tidy
    | ping =>
      refine Or.inr ⟨?_, Nat.lt_succ_self _⟩
      simp [waiting, PendingOperation.new]
    | request => exact (asks ⟨_, _, _, rfl⟩).elim
    | block | unsendable | single => exact (other rfl).elim
    | _ => exact Or.inl ⟨rfl, rfl⟩

private theorem tasks_step (other : act ≠ .dispatch) (moves : ∀ i choice, act ≠ .retransmit i choice)
    (ran : g.step env act = some g') : g'.retransmissions = g.retransmissions := by
  cases gateway_move ran with
  | recv stepped =>
    simp only [Gateway.afterRecv]
    split
    · rfl
    · rfl
    · split <;> rfl
    · rfl
  | block | unsendable | single => exact (other rfl).elim
  | retransmit => exact (moves _ _ rfl).elim
  | _ => rfl

private theorem holds_server {s next : Server} {action : Action} (ran : s.step env action = some next)
    (other : ∀ addr token op, action ≠ .client (.placeInFlight addr token op))
    (holds : Holds next.devices place op) : Holds s.devices place op := by
  have made := registry_step ran
  cases called : registryCall s action with
  | none =>
    rw [called] at made
    have same : s.devices = next.devices := Option.some.inj made
    rwa [same]
  | some call =>
    rw [called] at made
    rcases holds_apply made holds with old | ⟨addr, rfl, -⟩
    · exact old
    · exact (other _ _ _ (place_of_call called)).elim

/-- Only the dispatch task puts operations in flight. -/
theorem holds_step (other : act ≠ .dispatch) (ran : g.step env act = some g')
    (holds : Holds g'.server.devices place op) : Holds g.server.devices place op := by
  have called {made : Option ClientCall} {server : Server}
      (ran : Gateway.call env g.server made = some server)
      (none_ : ∀ addr token op, made ≠ some (.placeInFlight addr token op))
      (holds : Holds server.devices place op) : Holds g.server.devices place op := by
    cases made with
    | none =>
      cases ran
      exact holds
    | some made =>
      have stepped : g.server.step env (.client made) = some server := ran
      refine holds_server stepped (fun addr token op same => ?_) holds
      cases same
      exact none_ _ _ _ rfl
  cases gateway_move ran with
  | receive stepped | recv stepped | phase stepped | housekeeping stepped =>
    exact holds_server stepped (by simp) holds
  | server quiet stepped => exact holds_server stepped (by rintro _ _ _ rfl; cases quiet) holds
  | block | unsendable | single => exact (other rfl).elim
  | retransmit _ moved stepped => exact called stepped (retransmission_calls moved).1 holds
  | blockWrite _ moved stepped => exact called stepped (blockWrite_keeps moved).2.1 holds
  | setClass | ping | request => exact holds

theorem tidy_step (tidy : Tidy g.server.devices.byId) (ran : g.step env act = some g') :
    Tidy g'.server.devices.byId := by
  cases gateway_move ran with
  | receive stepped | recv stepped | phase stepped | housekeeping stepped =>
    exact (held_step tidy stepped (by simp)).1
  | server quiet stepped => exact (held_step tidy stepped (by rintro _ _ _ rfl; cases quiet)).1
  | @single addr op queue server task midCounter waiting placed =>
    cases placed
    exact (place_tidy tidy addr { op with attempts := op.attempts + 1 }).1
  | retransmit _ moved stepped => exact (flights_called tidy stepped (retransmission_calls moved).1).1
  | blockWrite _ moved stepped => exact (flights_called tidy stepped (blockWrite_keeps moved).2.1).1
  | setClass | ping | request | block | unsendable => exact tidy

/-! ## What is known of a task -/

/-- No device has the operation with this channel in flight. -/
def Gone (g : Gateway) (channel : Nat) : Prop :=
  ∀ place op, Holds g.server.devices place op → op.responseTx ≠ channel

/-- What holds at the place where a task is. -/
def Position (g : Gateway) (task : Retransmission) (watch : Watch) (device : UInt32) : Prop :=
  match task.pc with
  | .send | .check | .giveUp => (watch.timedOut = false ∧ watch.marked = false) ∧
      ∀ op, Holds g.server.devices (device, task.token) op → op.responseTx = watch.channel
  | .markOffline => watch.timedOut = true ∧ Gone g watch.channel
  | .report _ | .ended => watch.marked = watch.timedOut ∧ Gone g watch.channel

/-- The operation of a task is out of the queue, and in flight at most where it
was put. -/
structure Tracked (g : Gateway) (task : Retransmission) (watch : Watch) : Prop where
  left : watch.channel ∉ waiting g ∧ watch.channel < g.channels
  place : ∀ device, watch.device = some device → ∀ place op, Holds g.server.devices place op →
    op.responseTx = watch.channel → place = (device, task.token)
  position : ∀ device, watch.device = some device → Position g task watch device

/-- Channels are not used twice, and every task has its record. -/
structure Known (w : Watched) : Prop where
  tidy : Tidy w.gateway.server.devices.byId
  paired : w.watches.count = w.gateway.retransmissions.count
  queue : (waiting w.gateway).Nodup ∧ ∀ channel ∈ waiting w.gateway, channel < w.gateway.channels
  flights : ∀ place op, Holds w.gateway.server.devices place op →
    op.responseTx ∉ waiting w.gateway ∧ op.responseTx < w.gateway.channels
  tracked : ∀ i task watch, w.gateway.retransmissions.get? i = some task →
    w.watches.get? i = some watch → Tracked w.gateway task watch

/-- A channel that is not in the queue does not get there again. -/
private theorem left_step (tidy : Tidy g.server.devices.byId) (other : act ≠ .dispatch)
    (ran : g.step env act = some g') {channel : Nat}
    (left : channel ∉ waiting g ∧ channel < g.channels) :
    channel ∉ waiting g' ∧ channel < g'.channels := by
  rcases waiting_step tidy other ran with ⟨queue, channels⟩ | ⟨queue, channels⟩
  · rwa [queue, channels]
  · rw [queue]
    refine ⟨fun member => ?_, Nat.lt_trans left.2 channels⟩
    rcases List.mem_append.mp member with old | new
    · exact left.1 old
    · exact Nat.lt_irrefl _ (List.mem_singleton.mp new ▸ left.2)

private theorem queue_kept (tidy : Tidy g.server.devices.byId) (other : act ≠ .dispatch)
    (ran : g.step env act = some g')
    (queue : (waiting g).Nodup ∧ ∀ channel ∈ waiting g, channel < g.channels) :
    (waiting g').Nodup ∧ ∀ channel ∈ waiting g', channel < g'.channels := by
  rcases waiting_step tidy other ran with ⟨same, channels⟩ | ⟨joined, channels⟩
  · rwa [same, channels]
  · rw [joined]
    constructor
    · refine List.nodup_append.mpr ⟨queue.1, List.nodup_singleton _, fun channel old fresh new => ?_⟩
      rintro rfl
      exact Nat.lt_irrefl _ (List.mem_singleton.mp new ▸ queue.2 channel old)
    · intro channel member
      rcases List.mem_append.mp member with old | new
      · exact Nat.lt_trans (queue.2 channel old) channels
      · exact List.mem_singleton.mp new ▸ channels

/-- A task that does not move stays tracked while operations only leave. -/
private theorem Tracked.fewer (tracked : Tracked g task watch)
    (left : watch.channel ∉ waiting g' ∧ watch.channel < g'.channels)
    (fewer : ∀ place op, Holds g'.server.devices place op → Holds g.server.devices place op) :
    Tracked g' task watch where
  left := left
  place device known place op holds := tracked.place device known place op (fewer place op holds)
  position device known := by
    have position := tracked.position device known
    cases pc : task.pc with
    | send | check | giveUp =>
      simp only [Position, pc] at position ⊢
      exact ⟨position.1, fun op holds => position.2 op (fewer _ op holds)⟩
    | markOffline | report | ended =>
      simp only [Position, pc] at position ⊢
      exact ⟨position.1, fun place op holds => position.2 place op (fewer place op holds)⟩

/-! ## A step of a task -/

private theorem isInFlight_of_leads (leads : Leads g task device)
    (holds : Holds g.server.devices (device, task.token) op) :
    g.server.devices.byAddr.lookup task.addr = some device ∧
      g.server.devices.isInFlight task.addr task.token = some true := by
  obtain ⟨dev, held, entry⟩ := holds
  have key : device ∈ g.server.devices.byId.keys :=
    AList.mem_keys.mp (AList.lookup_isSome.mp (by rw [held]; rfl))
  have found := (leads device key (flies_iff.mpr ⟨op, dev, held, entry⟩)).mpr rfl
  refine ⟨found, ?_⟩
  simp [isInFlight, found, held, entry]

/-- The task looks and finds nothing. -/
private theorem gone_of_absent (tracked : Tracked g task watch) (known : watch.device = some device)
    (leads : Leads g task device)
    (absent : g.server.devices.isInFlight task.addr task.token = some false) : Gone g watch.channel := by
  intro place op holds same
  obtain rfl := tracked.place device known place op holds same
  rw [(isInFlight_of_leads leads holds).2] at absent
  cases absent

/-- The task takes the operation. -/
private theorem taken_completed (tracked : Tracked g task watch) (known : watch.device = some device)
    (pc : task.pc = .giveUp) (leads : Leads g task device)
    (flying : flies g.server.devices device task.token = true) :
    ((g.server.devices.completeInFlight task.addr task.token).1.any fun op =>
        decide (op.responseTx = watch.channel)) = true ∧
      ∀ place op, Holds g.server.devices place op → op.responseTx = watch.channel →
        ¬Holds (g.server.devices.completeInFlight task.addr task.token).2 place op := by
  obtain ⟨op, holds⟩ := flies_iff.mp flying
  obtain ⟨found, -⟩ := isInFlight_of_leads leads holds
  have position := tracked.position device known
  rw [Position, pc] at position
  have own := position.2 op holds
  obtain ⟨dev, held, entry⟩ := holds
  constructor
  · have taken : (g.server.devices.completeInFlight task.addr task.token).1 = some op := by
      simp [completeInFlight, found, held, entry]
    rw [taken]
    exact decide_eq_true own
  · intro place other there same
    obtain rfl := tracked.place device known place other there same
    exact not_holds_completed found

/-- What a step of the task makes of its position. -/
private theorem position_moved (tracked : Tracked g task watch) (known : watch.device = some device)
    (undisturbed : Undisturbed g task choice device) (moved : task.step g.server choice = some outcome)
    (called : Gateway.call env g.server outcome.call = some g'.server)
    (fewer : ∀ place op, Holds g'.server.devices place op → Holds g.server.devices place op) :
    Position g' outcome.task (watch.after g task) device := by
  have position := tracked.position device known
  unfold Retransmission.step at moved
  split at moved
  · rename_i pc
    cases moved
    simp only [Position, pc, Watch.after, undisturbed.1 pc, if_true] at position ⊢
    exact ⟨position.1, fun op holds => position.2 op (fewer _ op holds)⟩
  · rename_i pc
    simp only [Position, pc] at position
    obtain ⟨flying, looked, moved⟩ := Option.bind_eq_some_iff.mp moved
    cases flying with
    | false =>
      cases moved
      have gone := gone_of_absent tracked known (undisturbed.2.1 pc) looked
      simp only [Position, Watch.after, pc]
      exact ⟨position.1.2.trans position.1.1.symm, fun place op holds => gone place op (fewer place op holds)⟩
    | true =>
      cases moved
      have again : (watch.timedOut = false ∧ watch.marked = false) ∧
          ∀ op, Holds g'.server.devices (device, task.token) op → op.responseTx = watch.channel :=
        ⟨position.1, fun op holds => position.2 op (fewer _ op holds)⟩
      by_cases last : Client.maxRetransmit ≤ task.attempts + 1
      · simp only [Position, Watch.after, pc, if_pos last]
        exact again
      · simp only [Position, Watch.after, pc, if_neg last]
        exact again
  · rename_i pc
    cases moved
    obtain ⟨leads, flying⟩ := undisturbed.2.2 pc
    obtain ⟨taken, gone⟩ := taken_completed tracked known pc leads flying
    have stepped : g.server.step env (.client (.completeInFlight task.addr task.token)) =
        some g'.server := called
    have devices : g'.server.devices = (g.server.devices.completeInFlight task.addr task.token).2 :=
      (Option.some.inj (registry_step stepped)).symm
    simp only [Position, Watch.after, pc]
    refine ⟨taken, fun place op holds same => ?_⟩
    rw [devices] at holds
    exact gone place op (fewer place op (devices ▸ holds)) same holds
  · rename_i pc
    cases moved
    simp only [Position, pc] at position
    have gone : Gone g' watch.channel := fun place op holds => position.2 place op (fewer place op holds)
    simp only [Position, Watch.after, pc]
    cases (g.server.devices.setDeviceOffline g.server.clock task.addr).1 with
    | none => exact ⟨position.1.symm, gone⟩
    | some endpoint => exact ⟨position.1.symm, gone⟩
  · rename_i endpoint pc
    cases moved
    simp only [Position, pc, Watch.after] at position ⊢
    exact ⟨position.1, fun place op holds => position.2 place op (fewer place op holds)⟩
  · cases moved

@[simp] private theorem after_device : (watch.after g task).device = watch.device := by
  unfold Watch.after
  split <;> rfl

@[simp] private theorem after_channel : (watch.after g task).channel = watch.channel := by
  unfold Watch.after
  split <;> rfl

private theorem token_moved {s : Server} (moved : task.step s choice = some outcome) :
    outcome.task.token = task.token := by
  unfold Retransmission.step at moved
  split at moved
  case h_2 =>
    obtain ⟨flying, -, moved⟩ := Option.bind_eq_some_iff.mp moved
    split at moved <;> cases moved <;> rfl
  all_goals cases moved
  all_goals rfl

private theorem known_retransmit (known : Known w)
    (allowed : Guarded env w (.retransmit i choice))
    (ran : w.gateway.step env (.retransmit i choice) = some g') :
    Known ⟨g', observe env w (.retransmit i choice)⟩ := by
  have other : GatewayAction.retransmit i choice ≠ .dispatch := nofun
  have fewer (place : UInt32 × Token) (op : PendingOperation)
      (holds : Holds g'.server.devices place op) : Holds w.gateway.server.devices place op :=
    holds_step other ran holds
  obtain ⟨task, outcome, held, moved, called, tasks⟩ : ∃ task outcome,
      w.gateway.retransmissions.get? i = some task ∧
      task.step w.gateway.server choice = some outcome ∧
      Gateway.call env w.gateway.server outcome.call = some g'.server ∧
      g'.retransmissions = w.gateway.retransmissions.update i outcome.task := by
    cases gateway_move ran with
    | retransmit held moved called => exact ⟨_, _, held, moved, called, rfl⟩
  obtain ⟨watch, watched⟩ := Tasks.exists_of_lt_count w.watches
    (known.paired ▸ Tasks.lt_count w.gateway.retransmissions held)
  have observed : observe env w (.retransmit i choice) =
      w.watches.update i (watch.after w.gateway task) := by
    simp only [observe, held, watched]
  have tracked := known.tracked i task watch held watched
  rw [observed]
  refine ⟨tidy_step known.tidy ran, ?_, queue_kept known.tidy other ran known.queue, ?_, ?_⟩
  · simp only [tasks, Tasks.count_update]
    exact known.paired
  · exact fun place op holds =>
      left_step known.tidy other ran (known.flights place op (fewer place op holds))
  · intro j task' watch' held' watched'
    simp only [tasks] at held'
    rw [Tasks.get?_update _ held] at held'
    rw [Tasks.get?_update _ watched] at watched'
    split at held'
    · rename_i same
      rw [if_pos same] at watched'
      cases held'
      cases watched'
      have moves := tracked.fewer (left_step known.tidy other ran tracked.left) fewer
      refine ⟨by simpa using moves.left, fun device present place op holds same => ?_, ?_⟩
      · rw [token_moved moved]
        exact moves.place device (by simpa using present) place op holds (by simpa using same)
      · intro device present
        have present : watch.device = some device := by simpa using present
        exact position_moved tracked present (allowed task held watch watched device present) moved
          called fewer
    · rename_i apart
      rw [if_neg apart] at watched'
      have before := known.tracked j task' watch' held' watched'
      exact before.fewer (left_step known.tidy other ran before.left) fewer

/-! ## A step of the dispatch task -/

section Dispatch
variable {addr : SocketAddr} {queued : PendingOperation}

private theorem Placed.holds (placed : Placed env g g' addr queued task)
    (holds : Holds g'.server.devices place op) :
    Holds g.server.devices place op ∨ (place.2 = tokenOfId queued.id ∧
      g.server.devices.byAddr.lookup addr = some place.1 ∧ op.responseTx = queued.responseTx) := by
  have ran : g.server.devices.apply (.placeInFlight addr (tokenOfId queued.id)
      { queued with attempts := queued.attempts + 1 }) = some g'.server.devices := by
    rw [placed.devices]
    rfl
  rcases holds_apply ran holds with old | ⟨_, same, found⟩
  · exact Or.inl old
  · obtain ⟨rfl, token, rfl⟩ := Op.placeInFlight.inj same
    exact Or.inr ⟨token.symm, found, rfl⟩

private theorem Placed.waiting (placed : Placed env g g' addr queued task) :
    waiting g = queued.responseTx :: waiting g' := by
  rw [RetransmissionEnd.waiting, placed.queue]
  rfl

/-- The tasks that were there before are not concerned. -/
private theorem Placed.tracked_old {new : Retransmission} (placed : Placed env g g' addr queued new)
    (tracked : Tracked g task watch)
    (apart : ∀ device ∈ watch.device, Apart g (addr, queued) task device) :
    Tracked g' task watch := by
  have outside := tracked.left.1
  rw [placed.waiting] at outside
  obtain ⟨differs, left⟩ := not_or.mp (mt List.mem_cons.mpr outside)
  have own (place : UInt32 × Token) (op : PendingOperation) (holds : Holds g'.server.devices place op)
      (same : op.responseTx = watch.channel) : Holds g.server.devices place op := by
    rcases placed.holds holds with old | ⟨-, -, new⟩
    · exact old
    · exact (differs (same.symm.trans new)).elim
  have gone (before : Gone g watch.channel) : Gone g' watch.channel := fun place op holds same =>
    before place op (own place op holds same) same
  refine ⟨⟨left, placed.channels ▸ tracked.left.2⟩, ?_, fun device known => ?_⟩
  · exact fun device known place op holds same =>
      tracked.place device known place op (own place op holds same) same
  · have position := tracked.position device known
    have free (running_ : running task.pc = true) (op : PendingOperation)
        (holds : Holds g'.server.devices (device, task.token) op) :
        Holds g.server.devices (device, task.token) op := by
      rcases placed.holds holds with old | ⟨token, found, -⟩
      · exact old
      · exact (apart device known running_ found token).elim
    cases pc : task.pc with
    | send | check | giveUp =>
      simp only [Position, pc] at position ⊢
      exact ⟨position.1, fun op holds => position.2 op (free (by rw [pc]; rfl) op holds)⟩
    | markOffline | report | ended =>
      simp only [Position, pc] at position ⊢
      exact ⟨position.1, gone position.2⟩

private theorem Placed.tracked_new (placed : Placed env g g' addr queued task)
    (queue : (RetransmissionEnd.waiting g).Nodup ∧
      ∀ channel ∈ RetransmissionEnd.waiting g, channel < g.channels)
    (flights : ∀ place op, Holds g.server.devices place op →
      op.responseTx ∉ RetransmissionEnd.waiting g ∧ op.responseTx < g.channels) :
    Tracked g' task { device := deviceAt g.server.devices addr, channel := queued.responseTx } := by
  rw [placed.waiting] at queue flights
  have found {device : UInt32} (known : deviceAt g.server.devices addr = some device) :
      g.server.devices.byAddr.lookup addr = some device :=
    (Option.filter_eq_some_iff.mp known).1
  refine ⟨⟨(List.nodup_cons.mp queue.1).1, ?_⟩, ?_, ?_⟩
  · rw [placed.channels]
    exact queue.2 _ List.mem_cons_self
  · intro device known place op holds same
    rcases placed.holds holds with old | ⟨token, at_, -⟩
    · exact ((flights place op old).1 (same ▸ List.mem_cons_self)).elim
    · have same : place.1 = device := Option.some.inj (at_.symm.trans (found known))
      exact Prod.ext same (token.trans placed.token.symm)
  · intro device known
    simp only [Position, placed.pc, placed.token]
    refine ⟨⟨trivial, trivial⟩, fun op holds => ?_⟩
    rw [placed.devices] at holds
    rw [holds_placed (found known) holds]

end Dispatch

private theorem known_skipped (known : Known w) (skipped : Skipped env w.gateway g') :
    Known ⟨g', w.watches⟩ := by
  have fewer (place : UInt32 × Token) (op : PendingOperation)
      (holds : Holds g'.server.devices place op) : Holds w.gateway.server.devices place op := by
    rwa [skipped.server] at holds
  obtain ⟨entry, queue⟩ := skipped.queue
  have front : waiting w.gateway = entry.2.responseTx :: waiting g' := by
    rw [waiting, queue]
    rfl
  have left {channel : Nat}
      (before : channel ∉ waiting w.gateway ∧ channel < w.gateway.channels) :
      channel ∉ waiting g' ∧ channel < g'.channels := by
    rw [front] at before
    exact ⟨mt (List.mem_cons_of_mem _) before.1, skipped.channels ▸ before.2⟩
  have ids := known.queue
  rw [front] at ids
  refine ⟨skipped.server ▸ known.tidy, skipped.tasks ▸ known.paired, ?_, ?_, ?_⟩
  · exact ⟨(List.nodup_cons.mp ids.1).2,
      fun channel member => skipped.channels ▸ ids.2 channel (List.mem_cons_of_mem _ member)⟩
  · exact fun place op holds => left (known.flights place op (fewer place op holds))
  · intro i task watch held watched
    rw [skipped.tasks] at held
    have tracked := known.tracked i task watch held watched
    exact tracked.fewer (left tracked.left) fewer

private theorem known_placed {addr : SocketAddr} (known : Known w)
    (allowed : Guarded env w .dispatch) (placed : Placed env w.gateway g' addr op task)
    (ran : w.gateway.step env .dispatch = some g') :
    Known ⟨g', w.watches.spawn
      { device := deviceAt w.gateway.server.devices addr, channel := op.responseTx }⟩ := by
  have front := placed.waiting
  have ids := known.queue
  rw [front] at ids
  refine ⟨tidy_step known.tidy ran, ?_, ?_, ?_, ?_⟩
  · simp only [placed.tasks, Tasks.count_spawn]
    rw [known.paired]
  · exact ⟨(List.nodup_cons.mp ids.1).2,
      fun channel member => placed.channels ▸ ids.2 channel (List.mem_cons_of_mem _ member)⟩
  · intro place other holds
    rw [placed.channels]
    rcases placed.holds holds with old | ⟨-, -, new⟩
    · have before := known.flights place other old
      rw [front] at before
      exact ⟨mt (List.mem_cons_of_mem _) before.1, before.2⟩
    · rw [new]
      exact ⟨(List.nodup_cons.mp ids.1).1, ids.2 _ List.mem_cons_self⟩
  · intro i task' watch held watched
    rw [placed.tasks, Tasks.get?_spawn, ← known.paired] at held
    rw [Tasks.get?_spawn] at watched
    split at held
    · rename_i same
      rw [if_pos same] at watched
      cases held
      cases watched
      exact placed.tracked_new known.queue known.flights
    · rename_i other
      rw [if_neg other] at watched
      refine placed.tracked_old (known.tracked i task' watch held watched) fun device present => ?_
      exact allowed (addr, op) placed.placing i (Tasks.lt_count _ watched) task' held watch watched
        device present

private theorem known_step {act : GatewayAction} (known : Known w) (allowed : Guarded env w act)
    (ran : (machine env).step w act = some w') : Known w' := by
  obtain ⟨g', stepped, rfl⟩ := Option.map_eq_some_iff.mp ran
  by_cases dispatches : act = .dispatch
  · subst dispatches
    rcases dispatch_cases stepped with skipped | ⟨addr, op, task, placed⟩
    · simp only [observe, skipped.placing]
      exact known_skipped known skipped
    · simp only [observe, placed.placing]
      exact known_placed known allowed placed stepped
  · by_cases moves : ∃ i choice, act = .retransmit i choice
    · obtain ⟨i, choice, rfl⟩ := moves
      exact known_retransmit known allowed stepped
    · have same : observe env w act = w.watches := by
        cases act with
        | dispatch => exact (dispatches rfl).elim
        | retransmit i choice => exact (moves ⟨i, choice, rfl⟩).elim
        | _ => rfl
      have tasks := tasks_step dispatches (fun i choice equal => moves ⟨i, choice, equal⟩) stepped
      have fewer (place : UInt32 × Token) (op : PendingOperation)
          (holds : Holds g'.server.devices place op) : Holds w.gateway.server.devices place op :=
        holds_step dispatches stepped holds
      rw [same]
      refine ⟨tidy_step known.tidy stepped, tasks ▸ known.paired,
        queue_kept known.tidy dispatches stepped known.queue, ?_, ?_⟩
      · exact fun place op holds =>
          left_step known.tidy dispatches stepped (known.flights place op (fewer place op holds))
      · intro i task watch held watched
        rw [tasks] at held
        have tracked := known.tracked i task watch held watched
        exact tracked.fewer (left_step known.tidy dispatches stepped tracked.left) fewer

private theorem known_start (initial : (machine env).start w) : Known w := by
  obtain ⟨⟨seed, serverUri, included, now, snapshots, clock, trafficClass, -, -, -, gateway⟩, watches⟩ :=
    initial
  obtain ⟨tidy, empty⟩ := restored_tidy now snapshots
  have none_ (place : UInt32 × Token) (op : PendingOperation) :
      ¬Holds w.gateway.server.devices place op := by
    rintro ⟨dev, stored, entry⟩
    rw [gateway] at stored
    have member : op ∈ held (DeviceRegistry.new.restore now snapshots).byId :=
      List.mem_flatMap.mpr ⟨dev, Table.mem_values.mpr ⟨_, stored⟩, Table.mem_values.mpr ⟨_, entry⟩⟩
    rw [empty] at member
    cases member
  refine ⟨?_, ?_, ?_, fun place op holds => (none_ place op holds).elim, ?_⟩
  · rw [gateway]
    exact tidy
  · rw [gateway, watches]
    rfl
  · rw [gateway]
    exact ⟨List.nodup_nil, nofun⟩
  · intro i task watch _ watched
    rw [watches, Tasks.get?_empty] at watched
    cases watched

/-- **In every run whose tasks are undisturbed and whose tokens are not used
twice at a time, an ended task has settled its operation.** -/
theorem ended_settled (reached : (machine env).Reaches (Guarded env) w) : Settled w := by
  have known : Known w := reached.invariant Known (fun _ initial => known_start initial)
    fun _ _ _ _ known allowed ran => known_step known allowed ran
  intro i task watch device held watched present ended
  have position := (known.tracked i task watch held watched).position device present
  rw [Position, ended] at position
  exact ⟨position.2, by rw [position.1]⟩

/-! ## Two ends -/

/-- The task of a factory reset sends it, or fails to. -/
def attempt (sent : Bool) : List GatewayAction :=
  [.setClass (.retransmission 0) true, .retransmit 0 { sent }, .retransmit 0 {}]

/-- The device does not answer. -/
def unanswered : List GatewayAction :=
  Peer.resetInFlight ++ attempt true ++ attempt true ++ attempt true ++ [.retransmit 0 {}, .retransmit 0 {},
    .retransmit 0 {}]

/-- The first send fails. -/
def unsent : List GatewayAction := Peer.resetInFlight ++ attempt false ++ [.retransmit 0 {}]

/-- The first task has ended and has marked the device. -/
def endedMarked (timedOut flying : Bool) (w : Watched) : Bool :=
  (w.gateway.retransmissions.get? 0).any fun task => (w.watches.get? 0).any fun watch =>
    decide (task.pc = .ended) && decide (watch.device = some 1) && decide (watch.timedOut = timedOut) &&
      watch.marked && decide (flies w.gateway.server.devices 1 task.token = flying)

private theorem ended_of_check {timedOut flying : Bool} (seen : endedMarked timedOut flying w = true) :
    ∃ task watch, w.gateway.retransmissions.get? 0 = some task ∧ w.watches.get? 0 = some watch ∧
      task.pc = .ended ∧ watch.device = some 1 ∧ watch.timedOut = timedOut ∧ watch.marked = true ∧
      flies w.gateway.server.devices 1 task.token = flying := by
  obtain ⟨task, held, seen⟩ := (Option.any_eq_true _ _).mp seen
  obtain ⟨watch, watched, seen⟩ := (Option.any_eq_true _ _).mp seen
  simp only [Bool.and_eq_true, decide_eq_true_eq] at seen
  obtain ⟨⟨⟨⟨ended, device⟩, late⟩, marked⟩, flying⟩ := seen
  exact ⟨task, watch, held, watched, ended, device, late, marked, flying⟩

private theorem start_watched : (machine Peer.env).start { gateway := Peer.gateway } :=
  ⟨Peer.start_gateway, rfl⟩

/-- A device that does not answer: the operation is answered with a timeout, and
the device is marked. -/
theorem unanswered_settled : ∃ last,
    (machine Peer.env).exec (Guarded Peer.env) { gateway := Peer.gateway } unanswered = some last ∧
    Settled last ∧ ∃ watch, last.watches.get? 0 = some watch ∧ watch.marked = true ∧
      watch.timedOut = true := by
  obtain ⟨last, ran, reached, seen⟩ := Machine.exec_reaches (machine Peer.env) (Guarded Peer.env)
    { gateway := Peer.gateway } unanswered (endedMarked true false) start_watched (by decide +kernel)
  obtain ⟨task, watch, -, watched, -, -, late, marked, -⟩ := ended_of_check seen
  exact ⟨last, ran, ended_settled reached, watch, watched, marked, late⟩

/-- A send that fails: the device is marked, and its operation is left in flight
without an answer. -/
theorem unsent_unsettled : ∃ last, (machine Peer.env).Reaches Machine.always last ∧ ¬Settled last ∧
    ∃ task, last.gateway.retransmissions.get? 0 = some task ∧ task.pc = .ended ∧
      flies last.gateway.server.devices 1 task.token = true := by
  obtain ⟨last, -, reached, seen⟩ := Machine.exec_reaches (machine Peer.env) Machine.always
    { gateway := Peer.gateway } unsent (endedMarked false true) start_watched (by decide +kernel)
  obtain ⟨task, watch, held, watched, ended, device, late, marked, flying⟩ := ended_of_check seen
  refine ⟨last, reached, fun settled => ?_, task, held, ended, flying⟩
  have answered := (settled 0 task watch 1 held watched device ended).2.mp marked
  rw [late] at answered
  cases answered

end Lwm2mServer.RetransmissionEnd
