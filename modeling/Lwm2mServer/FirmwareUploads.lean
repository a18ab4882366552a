import Lwm2mServer.Ipc
import Lwm2mServer.OperationIds

/-! At most one firmware upload at a time. A firmware write waits for the
dispatch task, and is then sent by a block-wise write or a retransmission task
of its own. The lock is held by the handler or its watcher and not by the
transfer, so two transfers are never sent at once only as long as the lock is
given up after the transfer is over. -/
namespace Lwm2mServer.FirmwareUploads
open Library GatewaySteps InFlight OperationIds

/-! ## Transfers to /5/0/0 -/

def firmwareUri : List String := Client.uriPath fotaPath

/-- A write to the firmware resource. -/
def toFirmware : LwM2mCommand → Bool
  | .write path _ _ => decide (Client.uriPath path = firmwareUri)
  | _ => false

/-- The request of such a write. -/
def firmwarePut (packet : Packet) : Bool :=
  decide (packet.code = .request .put) && decide (packet.uriPath = firmwareUri)

/-- An operation is in flight under a token, with whatever device. -/
def flying (s : Server) (token : Token) : Bool :=
  (held s.devices.byId).any fun op => decide (tokenOfId op.id = token)

/-- A block-wise write that has blocks to send or waits for an answer. -/
def sendsBlocks (task : BlockWrite) : Bool :=
  decide (Client.uriPath task.path = firmwareUri) && match task.pc with
    | .next | .arm _ | .send .. | .wait .. | .disarm .. => true
    | _ => false

/-- A single write that is about to be sent, or will be sent again unless its
answer comes. -/
def sendsSingle (s : Server) (task : Retransmission) : Bool :=
  firmwarePut task.packet && match task.pc with
    | .send => true
    | .check => flying s task.token
    | _ => false

inductive Transfer where
  | block (id : Nat)
  | single (id : Nat)
  deriving DecidableEq

/-- A transfer to /5/0/0 is still sending. -/
def Sending (g : Gateway) : Transfer → Prop
  | .block i => ∃ task, g.blockWrites.get? i = some task ∧ sendsBlocks task
  | .single i => ∃ task, g.retransmissions.get? i = some task ∧ sendsSingle g.server task

/-- No two transfers are sending at the same time. -/
def OneAtATime (s : Ipc) : Prop :=
  ∀ x y, Sending s.gateway x → Sending s.gateway y → x = y

/-- How many firmware writes wait for the dispatch task or are still
sending. -/
def underWay (g : Gateway) : Nat :=
  g.queue.countP (fun entry => toFirmware entry.2.command) + g.blockWrites.all.countP sendsBlocks +
    g.retransmissions.all.countP (sendsSingle g.server)

/-! ## The condition -/

/-- The next step of an upload gives the lock up. -/
def releases (s : Ipc) (id : Nat) : Bool :=
  (s.uploads.get? id).any fun task => match task.pc with
    | .waitSingle | .watch => true
    | .waitFirst firstAck => !Ipc.acked s.gateway firstAck
    | _ => false

/-- The next step of a write hands over a write to the firmware resource. -/
def bypasses (s : Ipc) (id : Nat) : Bool :=
  (s.writes.get? id).any fun task => match task.pc with
    | .dispatch _ path => toFirmware (.write path [] 0)
    | _ => false

/-- The next operation of the dispatch task has the id of a firmware write
whose retransmission task has not ended. -/
def reusesId (g : Gateway) : Bool :=
  g.queue.head?.any fun entry => g.retransmissions.all.any fun task =>
    firmwarePut task.packet && decide (task.pc = .check) &&
      decide (task.token = tokenOfId entry.2.id)

/-- The lock is given up only when no firmware write waits or is sending, other
paths do not lead to the firmware resource, and ids are not used twice. -/
def Guarded (s : Ipc) : IpcAction → Prop
  | .upload id => releases s id → underWay s.gateway = 0
  | .resourceWrite id => bypasses s id = false
  | .gateway .dispatch => reusesId s.gateway = false
  | _ => True

instance (s : Ipc) : ∀ action, Decidable (Guarded s action)
  | .upload id => inferInstanceAs (Decidable (releases s id → underWay s.gateway = 0))
  | .resourceWrite id => inferInstanceAs (Decidable (bypasses s id = false))
  | .gateway .dispatch => inferInstanceAs (Decidable (reusesId s.gateway = false))
  | .gateway (.setClass ..) | .gateway (.server _) | .gateway .ping | .gateway (.request ..)
  | .gateway (.retransmit ..) | .gateway (.blockWrite ..) | .write .. => isTrue trivial

variable {env : Env} {ipso : IpsoModel} {s next : Server} {g g' : Gateway} {act : GatewayAction}

/-! ## Steps of the tasks -/

private theorem flying_of_inFlight (tidy : Tidy s.devices.byId) {addr : SocketAddr} {token : Token}
    (found : s.devices.isInFlight addr token = some true) : flying s token := by
  unfold DeviceRegistry.isInFlight at found
  split at found
  · cases found
  · rename_i id index
    obtain ⟨dev, stored, some_⟩ := Option.map_eq_some_iff.mp found
    obtain ⟨op, entry⟩ := Option.isSome_iff_exists.mp some_
    refine List.any_eq_true.mpr ⟨op, ?_, decide_eq_true ((tidy id dev stored).2 token op entry).symm⟩
    exact List.mem_flatMap.mpr ⟨dev, Table.mem_values.mpr ⟨id, stored⟩, Table.mem_values.mpr ⟨_, entry⟩⟩

/-- A retransmission task that has stopped sending does not start again. -/
private theorem single_stays (next : Server) {task : Retransmission} {choice : Choice}
    {outcome : ClientOutcome Retransmission} (tidy : Tidy s.devices.byId)
    (moved : task.step s choice = some outcome) (sends : sendsSingle next outcome.task) : sendsSingle s task := by
  cases pc : task.pc with
  | send =>
    simp only [Retransmission.step, pc] at moved
    cases moved
    simp only [sendsSingle, Bool.and_eq_true] at sends
    simp [sendsSingle, pc, sends.1]
  | check =>
    simp only [Retransmission.step, pc] at moved
    obtain ⟨found, looked, moved⟩ := Option.bind_eq_some_iff.mp moved
    cases found with
    | false =>
      cases moved
      simp [sendsSingle] at sends
    | true =>
      have flies := flying_of_inFlight tidy looked
      cases moved
      simp only [sendsSingle, Bool.and_eq_true] at sends
      simp [sendsSingle, pc, sends.1, flies]
  | giveUp =>
    simp only [Retransmission.step, pc] at moved
    cases moved
    simp [sendsSingle] at sends
  | markOffline =>
    simp only [Retransmission.step, pc] at moved
    cases moved
    cases found : (s.devices.setDeviceOffline s.clock task.addr).1 <;>
      simp [sendsSingle, found] at sends
  | report endpoint =>
    simp only [Retransmission.step, pc] at moved
    cases moved
    simp [sendsSingle] at sends
  | ended =>
    simp only [Retransmission.step, pc] at moved
    cases moved

private theorem path_keeps {task : BlockWrite} {choice : Choice} {outcome : ClientOutcome BlockWrite}
    (moved : task.step env s choice = some outcome) : outcome.task.path = task.path := by
  unfold BlockWrite.step at moved
  split at moved
  case h_1 =>
    dsimp only at moved
    split at moved
    · split at moved <;> cases moved <;> rfl
    · cases moved
      rfl
  case h_4 =>
    split at moved
    · cases moved
      unfold BlockWrite.received
      split
      · split <;> rfl
      · rfl
      · rfl
    · cases moved
      rfl
    · split at moved <;> cases moved
      rfl
  case h_5 =>
    dsimp only at moved
    split at moved <;> cases moved <;> rfl
  all_goals cases moved <;> rfl

/-- Nor does a block-wise write. -/
private theorem block_stays {task : BlockWrite} {choice : Choice} {outcome : ClientOutcome BlockWrite}
    (moved : task.step env s choice = some outcome) (sends : sendsBlocks outcome.task) :
    sendsBlocks task := by
  have path : Client.uriPath task.path = firmwareUri := by
    simp only [sendsBlocks, Bool.and_eq_true, decide_eq_true_eq] at sends
    rw [← path_keeps moved]
    exact sends.1
  cases pc : task.pc with
  | markOffline =>
    simp only [BlockWrite.step, pc] at moved
    cases moved
    cases found : (s.devices.setDeviceOffline s.clock task.addr).1 <;>
      simp [sendsBlocks, found] at sends
  | report endpoint =>
    simp only [BlockWrite.step, pc] at moved
    cases moved
    simp [sendsBlocks] at sends
  | ended =>
    simp only [BlockWrite.step, pc] at moved
    cases moved
  | _ => simp [sendsBlocks, path, pc]

/-! ## Steps of the gateway -/

private theorem toNat_le {a b : Bool} (implied : a = true → b = true) : a.toNat ≤ b.toNat := by
  cases a <;> cases b <;> simp_all

private theorem flying_of_subperm {devices devices' : Table UInt32 Device}
    (fewer : List.Subperm (held devices') (held devices)) {token : Token}
    (flies : (held devices').any fun op => decide (tokenOfId op.id = token)) :
    (held devices).any fun op => decide (tokenOfId op.id = token) := by
  obtain ⟨op, member, same⟩ := List.any_eq_true.mp flies
  exact List.any_eq_true.mpr ⟨op, fewer.subset member, same⟩

/-- With fewer operations in flight, fewer single writes are sending. -/
private theorem singles_mono (s next : Server) (tasks : List Retransmission)
    (fewer : ∀ task ∈ tasks, firmwarePut task.packet → task.pc = .check →
      flying next task.token → flying s task.token) :
    tasks.countP (sendsSingle next) ≤ tasks.countP (sendsSingle s) := by
  refine List.countP_mono_left fun task member sends => ?_
  simp only [sendsSingle, Bool.and_eq_true] at sends ⊢
  refine ⟨sends.1, ?_⟩
  cases pc : task.pc with
  | send => rfl
  | check => exact fewer task member sends.1 pc (by simpa [pc] using sends.2)
  | _ => simp [pc] at sends

private theorem underWay_le
    (queue : g'.queue.countP (fun entry => toFirmware entry.2.command) ≤
      g.queue.countP fun entry => toFirmware entry.2.command)
    (blocks : g'.blockWrites = g.blockWrites) (singles : g'.retransmissions = g.retransmissions)
    (fewer : ∀ token, flying g'.server token → flying g.server token) :
    underWay g' ≤ underWay g := by
  have fewerSingles := singles_mono g.server g'.server g.retransmissions.all
    fun task _ _ _ => fewer task.token
  unfold underWay
  rw [blocks, singles]
  omega

/-- What the receive loop hands over is no write. -/
private theorem afterRecv_firmware (tidy : Tidy g.server.devices.byId) :
    g.afterRecv.queue.countP (fun entry => toFirmware entry.2.command) =
        g.queue.countP (fun entry => toFirmware entry.2.command) ∧
      g.afterRecv.blockWrites = g.blockWrites ∧ g.afterRecv.retransmissions = g.retransmissions := by
  unfold Gateway.afterRecv
  split
  · refine ⟨?_, rfl, rfl⟩
    simp [Gateway.enqueue, PendingOperation.new, toFirmware]
  · refine ⟨?_, rfl, rfl⟩
    dsimp only
    rw [drainPending_empty tidy]
    simp
  · split <;> exact ⟨rfl, rfl, rfl⟩
  · exact ⟨rfl, rfl, rfl⟩

private theorem firmwarePut_build {command : LwM2mCommand} {token : Token} {mid : UInt16}
    (put : firmwarePut (Client.buildRequest command token mid)) : toFirmware command := by
  cases command with
  | write path value format =>
    simp only [firmwarePut, Client.buildRequest, Bool.and_eq_true] at put
    exact put.2
  | _ => simp [firmwarePut, Client.buildRequest] at put

private theorem countP_queue {addr : SocketAddr} {op : PendingOperation}
    {queue : List (SocketAddr × PendingOperation)} (waiting : g.queue = (addr, op) :: queue) :
    g.queue.countP (fun entry => toFirmware entry.2.command) =
      queue.countP (fun entry => toFirmware entry.2.command) + (toFirmware op.command).toNat := by
  rw [waiting, List.countP_cons]
  cases toFirmware op.command <;> rfl

private theorem countP_spawn {τ : Type} (tasks : Tasks τ) (task : τ) (counts : τ → Bool) :
    (tasks.spawn task).all.countP counts = tasks.all.countP counts + (counts task).toNat := by
  rw [Tasks.spawn, List.countP_append, List.countP_singleton]
  cases counts task <;> rfl

/-- No step but a request for one adds a firmware write. -/
theorem underWay_step (tidy : Tidy g.server.devices.byId) (ran : g.step env act = some g')
    (plain : ∀ addr command firstAck, act = .request addr command firstAck →
      toFirmware command = false)
    (fresh : act = .dispatch → reusesId g = false) :
    Tidy g'.server.devices.byId ∧ underWay g' ≤ underWay g := by
  cases gateway_move ran with
  | setClass => exact ⟨tidy, Nat.le_refl (underWay g)⟩
  | receive stepped | phase stepped | housekeeping stepped =>
    obtain ⟨kept, fewer⟩ := held_step tidy stepped (by simp)
    exact ⟨kept, underWay_le (Nat.le_refl _) rfl rfl fun _ => flying_of_subperm fewer⟩
  | server quiet stepped =>
    obtain ⟨kept, fewer⟩ := held_step tidy stepped (by rintro _ _ _ rfl; cases quiet)
    exact ⟨kept, underWay_le (Nat.le_refl _) rfl rfl fun _ => flying_of_subperm fewer⟩
  | recv stepped =>
    obtain ⟨kept, fewer⟩ := held_step tidy stepped (by simp)
    obtain ⟨queue, blocks, singles⟩ := afterRecv_firmware tidy
    exact ⟨kept, underWay_le (Nat.le_of_eq queue) blocks singles fun _ => flying_of_subperm fewer⟩
  | ping =>
    refine ⟨tidy, underWay_le (Nat.le_of_eq ?_) rfl rfl fun _ flies => flies⟩
    simp [PendingOperation.new, toFirmware]
  | request named same =>
    refine ⟨tidy, underWay_le (Nat.le_of_eq ?_) rfl rfl fun _ flies => flies⟩
    simp [same, plain _ _ _ rfl]
  | unsendable waiting =>
    refine ⟨tidy, underWay_le ?_ rfl rfl fun _ flies => flies⟩
    rw [countP_queue waiting]
    exact Nat.le_add_right _ _
  | @block addr op queue path value format midCounter task waiting command large named peer pc target =>
    refine ⟨tidy, ?_⟩
    have moves : (sendsBlocks task).toNat ≤ (toFirmware op.command).toNat := by
      refine toNat_le fun sends => ?_
      simp only [sendsBlocks, Bool.and_eq_true] at sends
      simpa [toFirmware, command, target] using sends.1
    have before := countP_queue waiting
    have after := countP_spawn g.blockWrites task sendsBlocks
    simp only [underWay] at *
    omega
  | @single addr op queue server midCounter task waiting placed pc token packet =>
    have placed : g.server.clientStep (.placeInFlight addr (tokenOfId op.id)
        { op with attempts := op.attempts + 1 }) = server := Option.some.inj placed
    obtain ⟨kept, joins⟩ := place_tidy tidy addr { op with attempts := op.attempts + 1 }
    have devices : server.devices = g.server.devices.placeInFlight addr (tokenOfId op.id)
        { op with attempts := op.attempts + 1 } := by rw [← placed]; rfl
    refine ⟨devices ▸ kept, ?_⟩
    have asleep := singles_mono g.server server g.retransmissions.all
      fun task member put check flies => by
        rw [flying, devices] at flies
        obtain ⟨other, inside, same⟩ := List.any_eq_true.mp flies
        rcases joins other inside with rfl | old
        · have reused := fresh rfl
          simp only [reusesId, waiting, List.head?_cons, Option.any_some] at reused
          have never := List.any_eq_false.mp reused task member
          simp [put, check, (of_decide_eq_true same).symm] at never
        · exact List.any_eq_true.mpr ⟨other, old, same⟩
    have moves : (sendsSingle server task).toNat ≤ (toFirmware op.command).toNat := by
      obtain ⟨mid, built⟩ := packet
      refine toNat_le fun sends => @firmwarePut_build op.command (tokenOfId op.id) mid ?_
      simp only [sendsSingle, Bool.and_eq_true] at sends
      exact built ▸ sends.1
    have before := countP_queue waiting
    have after := countP_spawn g.retransmissions task (sendsSingle server)
    simp only [underWay] at *
    omega
  | @retransmit i task choice outcome server armed transmissions found moved called =>
    obtain ⟨kept, fewer⟩ := flights_called tidy called (retransmission_calls moved).1
    refine ⟨kept, ?_⟩
    have less := singles_mono g.server server (g.retransmissions.update i outcome.task).all
      fun task _ _ _ => flying_of_subperm fewer
    have swapped := g.retransmissions.countP_update found outcome.task (sendsSingle g.server)
    have stays := toNat_le (single_stays g.server tidy moved)
    simp only [underWay] at *
    omega
  | @blockWrite i task choice outcome server armed transmissions answers found moved called =>
    obtain ⟨kept, fewer⟩ := flights_called tidy called (blockWrite_keeps moved).2.1
    refine ⟨kept, ?_⟩
    have less := singles_mono g.server server g.retransmissions.all
      fun task _ _ _ => flying_of_subperm fewer
    have swapped := g.blockWrites.countP_update found outcome.task sendsBlocks
    have stays := toNat_le (block_stays moved)
    simp only [underWay] at *
    omega

private theorem underWay_request {addr : SocketAddr} {command : LwM2mCommand} {firstAck : Bool}
    (ran : g.step env (.request addr command firstAck) = some g') :
    g'.server = g.server ∧ underWay g' ≤ underWay g + 1 := by
  cases ran
  refine ⟨rfl, ?_⟩
  simp only [underWay, List.countP_append, List.countP_singleton]
  split <;> omega

/-! ## The lock -/

/-- The handler or the watcher of an upload has the lock. -/
def holdsLock (task : Upload) : Bool :=
  match task.pc with
  | .dispatch _ | .waitSingle | .waitFirst _ | .watch => true
  | _ => false

/-- It has handed its write over and has the lock. -/
def guards (task : Upload) : Bool :=
  match task.pc with
  | .waitSingle | .waitFirst _ | .watch => true
  | _ => false

/-- Every firmware write under way is guarded by an upload, and one at most has
the lock. -/
structure Locked (s : Ipc) : Prop where
  tidy : Tidy s.gateway.server.devices.byId
  lock : s.uploads.all.countP holdsLock ≤ s.fotaLock.toNat
  owned : underWay s.gateway ≤ s.uploads.all.countP guards

variable {s s' : Ipc}

private theorem guards_le (uploads : List Upload) : uploads.countP guards ≤ uploads.countP holdsLock := by
  refine List.countP_mono_left fun task _ guarded => ?_
  cases pc : task.pc <;> simp_all [guards, holdsLock]

/-- An upload has the lock only while it is taken, in every run. -/
theorem held_step {action : IpcAction} (held : s.uploads.all.countP holdsLock ≤ s.fotaLock.toNat)
    (ran : s.step env ipso action = some s') :
    s'.uploads.all.countP holdsLock ≤ s'.fotaLock.toNat := by
  cases action with
  | gateway action =>
    simp only [Ipc.step] at ran
    split at ran
    · cases ran
    · obtain ⟨gateway, -, rfl⟩ := Option.map_eq_some_iff.mp ran
      exact held
  | write path device bytes value =>
    simp only [Ipc.step] at ran
    split at ran
    · cases ran
      rw [countP_spawn]
      exact held
    · cases ran
      exact held
  | upload id =>
    obtain ⟨task, found, ran⟩ := Option.bind_eq_some_iff.mp ran
    have one : s.fotaLock.toNat ≤ 1 := Bool.toNat_le _
    have moved {new : Upload} {lock : Bool}
        (holds : (holdsLock new).toNat + s.fotaLock.toNat ≤ (holdsLock task).toNat + lock.toNat) :
        (s.uploads.update id new).all.countP holdsLock ≤ lock.toNat := by
      have holders := s.uploads.countP_update found new holdsLock
      omega
    cases pc : task.pc with
    | find =>
      simp only [pc] at ran
      obtain ⟨device, -, ran⟩ := Option.bind_eq_some_iff.mp ran
      cases ran
      refine moved ?_
      cases device <;> cases task.bytes <;> simp [holdsLock, pc]
    | lock addr =>
      simp only [pc] at ran
      split at ran
      · cases ran
        exact moved (by simp [holdsLock, pc])
      · rename_i free
        cases ran
        exact moved (by simp [holdsLock, pc, free])
    | dispatch addr =>
      simp only [pc] at ran
      obtain ⟨gateway, -, ran⟩ := Option.bind_eq_some_iff.mp ran
      cases ran
      refine moved ?_
      by_cases large : Client.blockThreshold < (task.bytes.getD []).length <;>
        simp [holdsLock, pc, large]
    | waitFirst firstAck =>
      simp only [pc] at ran
      split at ran
      · cases ran
        exact moved (by simp [holdsLock, pc])
      · cases ran
        exact moved (by simpa [holdsLock, pc] using one)
    | waitSingle | watch =>
      simp only [pc] at ran
      cases ran
      exact moved (by simpa [holdsLock, pc] using one)
    | finished =>
      simp only [pc] at ran
      cases ran
  | resourceWrite id =>
    obtain ⟨task, found, ran⟩ := Option.bind_eq_some_iff.mp ran
    cases pc : task.pc with
    | resolve =>
      simp only [pc] at ran
      obtain ⟨resolved, -, ran⟩ := Option.bind_eq_some_iff.mp ran
      cases ran
      exact held
    | dispatch addr path =>
      simp only [pc] at ran
      obtain ⟨gateway, -, ran⟩ := Option.bind_eq_some_iff.mp ran
      cases ran
      exact held
    | finished =>
      simp only [pc] at ran
      cases ran

theorem reached_held {guard : Ipc → IpcAction → Prop} (reached : (Ipc.machine env ipso).Reaches guard s) :
    s.uploads.all.countP holdsLock ≤ s.fotaLock.toNat := by
  refine reached.invariant (fun s => s.uploads.all.countP holdsLock ≤ s.fotaLock.toNat) ?_
    fun s action s' _ held _ ran => held_step held ran
  rintro s ⟨gateway, -, rfl⟩
  exact Nat.zero_le _

/-- An upload moves on, and the writes under way change with it. -/
private theorem owned_goto {id : Nat} {task new : Upload} {gateway : Gateway}
    (locked : Locked s) (found : s.uploads.get? id = some task)
    (owned : underWay gateway + (guards task).toNat ≤ underWay s.gateway + (guards new).toNat ∨
      underWay gateway = 0) :
    underWay gateway ≤ (s.uploads.update id new).all.countP guards := by
  have guarders := s.uploads.countP_update found new guards
  have under := locked.owned
  omega

private theorem locked_upload {id : Nat} (locked : Locked s) (allowed : Guarded s (.upload id))
    (ran : s.uploadStep env id = some s') :
    Tidy s'.gateway.server.devices.byId ∧ underWay s'.gateway ≤ s'.uploads.all.countP guards := by
  obtain ⟨task, found, ran⟩ := Option.bind_eq_some_iff.mp ran
  have idle (releasing : releases s id) : underWay s.gateway = 0 := allowed releasing
  cases pc : task.pc with
  | find =>
    simp only [pc] at ran
    obtain ⟨device, -, ran⟩ := Option.bind_eq_some_iff.mp ran
    cases ran
    refine ⟨locked.tidy, owned_goto locked found (Or.inl ?_)⟩
    cases device <;> cases task.bytes <;> simp [guards, pc]
  | lock addr =>
    simp only [pc] at ran
    split at ran
    · cases ran
      exact ⟨locked.tidy, owned_goto locked found (Or.inl (by simp [guards, pc]))⟩
    · cases ran
      exact ⟨locked.tidy, owned_goto locked found (Or.inl (by simp [guards, pc]))⟩
  | dispatch addr =>
    simp only [pc] at ran
    obtain ⟨gateway, asked, ran⟩ := Option.bind_eq_some_iff.mp ran
    cases ran
    obtain ⟨server, under⟩ := underWay_request asked
    refine ⟨server ▸ locked.tidy, owned_goto locked found (Or.inl ?_)⟩
    by_cases large : Client.blockThreshold < (task.bytes.getD []).length <;>
      simpa [guards, pc, large] using under
  | waitFirst firstAck =>
    simp only [pc] at ran
    split at ran
    · cases ran
      exact ⟨locked.tidy, owned_goto locked found (Or.inl (by simp [guards, pc]))⟩
    · rename_i silent
      cases ran
      refine ⟨locked.tidy, owned_goto locked found (Or.inr (idle ?_))⟩
      simp [releases, found, pc, silent]
  | waitSingle | watch =>
    simp only [pc] at ran
    cases ran
    refine ⟨locked.tidy, owned_goto locked found (Or.inr (idle ?_))⟩
    simp [releases, found, pc]
  | finished =>
    simp only [pc] at ran
    cases ran

private theorem locked_step {action : IpcAction} (locked : Locked s) (allowed : Guarded s action)
    (ran : s.step env ipso action = some s') : Locked s' := by
  have held := held_step locked.lock ran
  cases action with
  | gateway action =>
    simp only [Ipc.step] at ran
    split at ran
    · cases ran
    · rename_i other
      obtain ⟨gateway, stepped, rfl⟩ := Option.map_eq_some_iff.mp ran
      obtain ⟨tidy, under⟩ := underWay_step locked.tidy stepped
        (fun addr command firstAck same => by
          subst same
          cases command with
          | write => simp [Ipc.handsWrite] at other
          | _ => rfl)
        (fun same => by
          subst same
          exact allowed)
      exact ⟨tidy, held, Nat.le_trans under locked.owned⟩
  | write path device bytes value =>
    simp only [Ipc.step] at ran
    split at ran
    · cases ran
      refine ⟨locked.tidy, held, ?_⟩
      rw [countP_spawn]
      exact locked.owned
    · cases ran
      exact ⟨locked.tidy, held, locked.owned⟩
  | upload id =>
    obtain ⟨tidy, owned⟩ := locked_upload locked allowed ran
    exact ⟨tidy, held, owned⟩
  | resourceWrite id =>
    obtain ⟨task, found, ran⟩ := Option.bind_eq_some_iff.mp ran
    cases pc : task.pc with
    | resolve =>
      simp only [pc] at ran
      obtain ⟨resolved, -, ran⟩ := Option.bind_eq_some_iff.mp ran
      cases ran
      exact ⟨locked.tidy, held, locked.owned⟩
    | dispatch addr path =>
      simp only [pc] at ran
      obtain ⟨gateway, asked, ran⟩ := Option.bind_eq_some_iff.mp ran
      cases ran
      have elsewhere : toFirmware (.write path [] 0) = false := by
        simpa [Guarded, bypasses, found, pc] using allowed
      obtain ⟨tidy, under⟩ := underWay_step locked.tidy asked
        (fun _ _ _ same => by
          cases same
          exact elsewhere) (fun same => by cases same)
      exact ⟨tidy, held, Nat.le_trans under locked.owned⟩
    | finished =>
      simp only [pc] at ran
      cases ran

theorem reached_locked (reached : (Ipc.machine env ipso).Reaches Guarded s) : Locked s := by
  refine reached.invariant Locked ?_ fun s action s' _ locked allowed ran =>
    locked_step locked allowed ran
  rintro s ⟨gateway, ⟨seed, serverUri, included, now, snapshots, clock, trafficClass, -, -, -, rfl⟩,
    rfl⟩
  exact ⟨(restored_tidy now snapshots).1, Nat.zero_le _, Nat.le_refl 0⟩

/-- Of a list with one element at most of a kind, all elements of the kind are
at one place. -/
private theorem same_place {τ : Type} {tasks : List τ} {counts : τ → Bool}
    (one : tasks.countP counts ≤ 1) {i j : Nat} {a b : τ} (first : tasks[i]? = some a)
    (second : tasks[j]? = some b) (here : counts a) (there : counts b) : i = j := by
  have ordered {i j : Nat} {a b : τ} (first : tasks[i]? = some a) (second : tasks[j]? = some b)
      (here : counts a) (there : counts b) (before : i < j) : False := by
    have split := congrArg (List.countP counts) (List.take_append_drop j tasks).symm
    rw [List.countP_append] at split
    have low : 0 < (tasks.take j).countP counts :=
      List.countP_pos_iff.mpr ⟨a, List.mem_of_getElem? (i := i) (by
        rw [List.getElem?_take_of_lt before, first]), here⟩
    have high : 0 < (tasks.drop j).countP counts :=
      List.countP_pos_iff.mpr ⟨b, List.mem_of_getElem? (i := 0) (by
        rw [List.getElem?_drop, Nat.add_zero, second]), there⟩
    omega
  rcases Nat.lt_trichotomy i j with before | same | after
  · exact (ordered first second here there before).elim
  · exact same
  · exact (ordered second first there here after).elim

/-- **At most one firmware upload at a time**, in every run in which the lock is
given up only when no firmware write waits or is sending, other paths do not
lead to the firmware resource and ids are not used twice. -/
theorem one_at_a_time (reached : (Ipc.machine env ipso).Reaches Guarded s) : OneAtATime s := by
  have locked := reached_locked reached
  have bound : underWay s.gateway ≤ 1 :=
    calc underWay s.gateway
      _ ≤ s.uploads.all.countP guards := locked.owned
      _ ≤ s.uploads.all.countP holdsLock := guards_le _
      _ ≤ s.fotaLock.toNat := locked.lock
      _ ≤ 1 := Bool.toNat_le _
  unfold underWay at bound
  have block {i : Nat} (sends : Sending s.gateway (.block i)) :
      0 < s.gateway.blockWrites.all.countP sendsBlocks := by
    obtain ⟨task, found, counts⟩ := sends
    exact List.countP_pos_iff.mpr ⟨task, List.mem_of_getElem? found, counts⟩
  have single {i : Nat} (sends : Sending s.gateway (.single i)) :
      0 < s.gateway.retransmissions.all.countP (sendsSingle s.gateway.server) := by
    obtain ⟨task, found, counts⟩ := sends
    exact List.countP_pos_iff.mpr ⟨task, List.mem_of_getElem? found, counts⟩
  intro x y first second
  cases x with
  | block i =>
    cases y with
    | block j =>
      obtain ⟨a, found, here⟩ := first
      obtain ⟨b, found', there⟩ := second
      rw [same_place (by omega) found found' here there]
    | single j =>
      have one := block first
      have two := single second
      omega
  | single i =>
    cases y with
    | block j =>
      have one := single first
      have two := block second
      omega
    | single j =>
      obtain ⟨a, found, here⟩ := first
      obtain ⟨b, found', there⟩ := second
      rw [same_place (by omega) found found' here there]

/-! ## Two uploads -/

/-- The gateway as it starts with a mower that is registered. -/
def withMower : Ipc where
  gateway :=
    { server := .initial 0 (some "coaps://gateway") ["mower"] (DeviceRegistry.new.restore 0
        [{ id := 1, endpoint := "mower", addr := Peer.addr, lifetime := 86400, objects := []
           objectVersions := ∅, lwm2mVersion := "1.1", bindingMode := "", endOfLife := 86400 }]) 0
      trafficClass := 0 }

/-- An upload of 600 bytes arrives and is handed to the dispatch task, which
spawns its transfer. -/
def uploadImage (id : Nat) : List IpcAction :=
  .write Ipc.packagePath "mower" (some (List.replicate 600 7)) none ::
    List.replicate 3 (.upload id) ++ [.gateway .dispatch]

/-- The transfer sends its next block. -/
def sendBlock (id : Nat) : List IpcAction :=
  [.gateway (.blockWrite id {}), .gateway (.blockWrite id {}), .gateway (.setClass (.blockWrite id) true),
    .gateway (.blockWrite id {})]

/-- The device answers the block, and the transfer takes the answer; `steps`
are those of the receive loop. -/
def answerBlock (id : Nat) (op : UInt32) (status : Status) (steps : Nat) : List IpcAction :=
  .gateway (.server (.receive (some { type := .acknowledgement, code := .response status, messageId := 1
                                      token := (tokenOfId op).toList }) Peer.addr)) ::
    List.replicate steps (.gateway (.server (.recv {}))) ++ [.gateway (.blockWrite id {})]

/-- The second upload comes after the first one is through. -/
def oneByOne : List IpcAction :=
  uploadImage 0 ++ sendBlock 0 ++ answerBlock 0 1 .continue 5 ++ sendBlock 0 ++
    answerBlock 0 1 .changed 4 ++ [.upload 0, .upload 0] ++ uploadImage 1

/-- The watcher of the first upload times out after its first block, and the
second upload is let in. -/
def timedOut : List IpcAction :=
  uploadImage 0 ++ sendBlock 0 ++ answerBlock 0 1 .continue 5 ++ [.upload 0, .upload 0] ++
    uploadImage 1

private theorem start_withMower : (Ipc.machine Peer.env ⟨∅⟩).start withMower :=
  ⟨_, ⟨0, some "coaps://gateway", ["mower"], 0, _, 0, 0, by decide, by simp, by simp, rfl⟩, rfl⟩

/-- A block-wise upload is sending. -/
def sendingBlock (i : Nat) (s : Ipc) : Bool := (s.gateway.blockWrites.get? i).any sendsBlocks

private theorem sending_of_check {i : Nat} (seen : sendingBlock i s = true) :
    Sending s.gateway (.block i) :=
  (Option.any_eq_true _ _).mp seen

/-- One after the other, the second upload is the only one sending. -/
theorem oneByOne_single : ∃ last,
    (Ipc.machine Peer.env ⟨∅⟩).exec Guarded withMower oneByOne = some last ∧ OneAtATime last ∧
    ∀ x, Sending last.gateway x ↔ x = .block 1 := by
  obtain ⟨last, ran, reached, seen⟩ := Machine.exec_reaches (Ipc.machine Peer.env ⟨∅⟩) Guarded
    withMower oneByOne (sendingBlock 1) start_withMower (by decide +kernel)
  have single := one_at_a_time reached
  have second := sending_of_check seen
  refine ⟨last, ran, single, fun x => ⟨fun sends => single x _ sends second, ?_⟩⟩
  rintro rfl
  exact second

/-- After the watcher's timeout both uploads are sending. -/
theorem timedOut_both : ∃ last, (Ipc.machine Peer.env ⟨∅⟩).Reaches Machine.always last ∧
    ¬ OneAtATime last ∧ Sending last.gateway (.block 0) ∧ Sending last.gateway (.block 1) := by
  obtain ⟨last, -, reached, seen⟩ := Machine.exec_reaches (Ipc.machine Peer.env ⟨∅⟩) Machine.always
    withMower timedOut (fun s => sendingBlock 0 s && sendingBlock 1 s) start_withMower
    (by decide +kernel)
  obtain ⟨first, second⟩ := Bool.and_eq_true_iff.mp seen
  refine ⟨last, reached, fun single => ?_, sending_of_check first, sending_of_check second⟩
  cases single _ _ (sending_of_check first) (sending_of_check second)

end Lwm2mServer.FirmwareUploads
