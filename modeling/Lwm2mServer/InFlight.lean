import Lwm2mServer.DeviceRecords
import Lwm2mServer.RegistryIndexes

/-! Operations in flight are conserved. The registry is run together with the
code that stores operations in it and fires their response channels: the
dispatch task, the ACK and RST handlers and the retransmission tasks' final
timeouts. A call moves operations between the devices' tables and the answers
and loses none (`Moves`), so at every moment the operations ever stored are
those in flight and those answered (`Conserved`).

Taking an operation out of a table and firing its channel is one step: the
handlers do both without waiting in between. -/
namespace Lwm2mServer.InFlight
open Library DeviceRecords DeviceRegistry RegistryIndexes

/-- Every operation in flight, over all devices. -/
def held (devices : Table UInt32 Device) : List PendingOperation :=
  devices.values.flatMap fun dev => dev.inFlight.values

/-- An operation is in a device's table under a token. -/
def Holds (r : DeviceRegistry) (place : UInt32 × Token) (op : PendingOperation) : Prop :=
  ∃ dev, r.byId.lookup place.1 = some dev ∧ dev.inFlight.lookup place.2 = some op

/-- Nothing is queued, and an operation in flight is under the token made from
its id. -/
def Tidy (devices : Table UInt32 Device) : Prop :=
  ∀ id dev, devices.lookup id = some dev → dev.pendingOps = [] ∧
    ∀ token op, dev.inFlight.lookup token = some op → token = tokenOfId op.id

def timeoutReply (op : PendingOperation) : Reply := (op.responseTx, .error .timeout)

/-! ## What a call does to the operations in flight -/

/-- How a device table changes, with the operations that are answered with a
timeout. -/
inductive Moves : Table UInt32 Device → List PendingOperation → Table UInt32 Device → Prop where
  | refl : Moves table [] table
  | put {id : UInt32} {dev changed : Device} (stored : table.lookup id = some dev)
      (inFlight : changed.inFlight = dev.inFlight)
      (pending : changed.pendingOps = dev.pendingOps ∨ changed.pendingOps = []) :
      Moves table [] (table.insert id changed)
  | map (change : Device → Device) (inFlight : ∀ dev, (change dev).inFlight = dev.inFlight)
      (pending : ∀ dev, (change dev).pendingOps = dev.pendingOps) :
      Moves table [] (table.mapVals fun _ => change)
  | remove {id : UInt32} {dev : Device} (stored : table.lookup id = some dev) :
      Moves table (dev.pendingOps ++ dev.inFlight.values) (table.erase id)
  | timeout (late : PendingOperation → Bool) :
      Moves table (table.values.flatMap fun dev => dev.inFlight.values.filter late)
        (table.mapVals fun _ dev =>
          { dev with inFlight := dev.inFlight.filterVals fun _ op => !late op })
  | trans (first : Moves table gone middle) (second : Moves middle gone' last) :
      Moves table (gone ++ gone') last

variable {table last : Table UInt32 Device} {gone : List PendingOperation} {id : UInt32}
  {dev changed : Device} {r next : DeviceRegistry}

theorem held_insert (table : Table UInt32 Device) (id : UInt32) (dev : Device) :
    held (table.insert id dev) = dev.inFlight.values ++ held (table.erase id) := by
  rw [held, Table.values_insert, List.flatMap_cons]
  rfl

theorem held_stored (stored : table.lookup id = some dev) :
    (held table).Perm (dev.inFlight.values ++ held (table.erase id)) := by
  have moved := (Table.values_perm_erase stored).flatMap_right fun dev => dev.inFlight.values
  rwa [List.flatMap_cons] at moved

private theorem filter_parts (late : PendingOperation → Bool) (devices : List Device) :
    (devices.flatMap fun dev => dev.inFlight.values).Perm
      ((devices.flatMap fun dev => dev.inFlight.values.filter late) ++
        devices.flatMap fun dev => dev.inFlight.values.filter fun op => !late op) := by
  induction devices with
  | nil => exact .refl _
  | cons dev rest ih =>
    simp only [List.flatMap_cons]
    have split := (List.filter_append_perm late dev.inFlight.values).symm
    refine (split.append ih).trans ?_
    simp only [List.append_assoc]
    refine List.Perm.append_left _ ?_
    simp only [← List.append_assoc]
    exact List.Perm.append_right _ List.perm_append_comm

/-- **No call loses an operation**: what was in flight is in flight or
answered. -/
theorem moves_conserve (moves : Moves table gone last) (tidy : Tidy table) :
    Tidy last ∧ (held table).Perm (gone ++ held last) := by
  induction moves with
  | refl => exact ⟨tidy, .refl _⟩
  | @put table id dev changed stored inFlight pending =>
    obtain ⟨empty, tokens⟩ := tidy id dev stored
    constructor
    · intro other kept found
      rw [Table.lookup_insert_if] at found
      split at found
      · cases found
        rw [inFlight]
        exact ⟨pending.elim (fun same => same.trans empty) (fun none => none), tokens⟩
      · exact tidy other kept found
    · rw [held_insert, inFlight]
      exact held_stored stored
  | @map table change inFlight pending =>
    constructor
    · intro id changed found
      rw [Table.lookup_mapVals] at found
      obtain ⟨dev, stored, rfl⟩ := Option.map_eq_some_iff.mp found
      rw [inFlight, pending]
      exact tidy id dev stored
    · rw [held, held, Table.values_mapVals, List.flatMap_map]
      simp only [inFlight, List.nil_append]
      exact .refl _
  | @remove table id dev stored =>
    constructor
    · intro other kept found
      rw [Table.lookup_erase_if] at found
      split at found
      · cases found
      · exact tidy other kept found
    · rw [(tidy id dev stored).1, List.nil_append]
      exact held_stored stored
  | @timeout table late =>
    constructor
    · intro id changed found
      rw [Table.lookup_mapVals] at found
      obtain ⟨dev, stored, rfl⟩ := Option.map_eq_some_iff.mp found
      obtain ⟨empty, tokens⟩ := tidy id dev stored
      exact ⟨empty, fun token op kept => tokens token op (Table.lookup_of_filterVals kept)⟩
    · rw [held, held, Table.values_mapVals, List.flatMap_map]
      simp only [Table.values_filterVals]
      exact filter_parts late _
  | trans _ _ first second =>
    obtain ⟨tidyMiddle, firstPart⟩ := first tidy
    obtain ⟨tidyLast, secondPart⟩ := second tidyMiddle
    rw [List.append_assoc]
    exact ⟨tidyLast, firstPart.trans (secondPart.append_left _)⟩

/-- Ids only leave the table. -/
theorem moves_known (moves : Moves table gone last) (found : last.lookup id = some dev) :
    ∃ old, table.lookup id = some old := by
  induction moves generalizing dev with
  | refl => exact ⟨dev, found⟩
  | put stored =>
    rw [Table.lookup_insert_if] at found
    split at found
    · rename_i same
      exact ⟨_, same ▸ stored⟩
    · exact ⟨dev, found⟩
  | map change =>
    rw [Table.lookup_mapVals] at found
    obtain ⟨old, stored, _⟩ := Option.map_eq_some_iff.mp found
    exact ⟨old, stored⟩
  | remove stored =>
    rw [Table.lookup_erase_if] at found
    split at found
    · cases found
    · exact ⟨dev, found⟩
  | timeout late =>
    rw [Table.lookup_mapVals] at found
    obtain ⟨old, stored, _⟩ := Option.map_eq_some_iff.mp found
    exact ⟨old, stored⟩
  | trans _ _ first second =>
    obtain ⟨middle, stored⟩ := second found
    exact first stored

/-! ## The methods -/

/-- The replies a call fires. -/
def repliesOf (r : DeviceRegistry) : Op → List Reply
  | .expireStale now graceSecs => (r.expireStale now graceSecs).2.1
  | .timeoutInFlight now maxSecs => (r.timeoutInFlight now maxSecs).1
  | .removeByAddr addr => (r.removeByAddr addr).2.1
  | _ => []

/-- The two calls that put an operation into a table or hand one out. -/
def handsOver : Op → Bool
  | .placeInFlight .. | .completeInFlight .. => true
  | _ => false

private theorem moves_expireStale (now : Instant) (graceSecs : UInt32) :
    ∃ gone, Moves r.byId gone (r.expireStale now graceSecs).2.2.byId ∧
      (r.expireStale now graceSecs).2.1 = gone.map timeoutReply ∧
      (r.expireStale now graceSecs).2.2.nextId = r.nextId := by
  unfold expireStale
  generalize (r.byId.values.filter (·.isExpired now graceSecs)).map (·.id) = expired
  suffices loop : ∀ acc : List String × List Reply × DeviceRegistry, ∃ gone,
      Moves acc.2.2.byId gone (expired.foldl expireOne acc).2.2.byId ∧
      (expired.foldl expireOne acc).2.1 = acc.2.1 ++ gone.map timeoutReply ∧
      (expired.foldl expireOne acc).2.2.nextId = acc.2.2.nextId from by
    simpa using loop ([], [], r)
  induction expired with
  | nil => exact fun acc => ⟨[], .refl, by simp, rfl⟩
  | cons id rest ih =>
    intro acc
    obtain ⟨removed, replies, r⟩ := acc
    cases found : r.byId.lookup id with
    | none =>
      have skip : expireOne (removed, replies, r) id = (removed, replies, r) := by
        simp [expireOne, found]
      simpa only [List.foldl_cons, skip] using ih (removed, replies, r)
    | some dev =>
      have gone : expireOne (removed, replies, r) id =
          (removed ++ [dev.endpoint], replies ++ timeoutReplies dev,
            r.removeDevice id dev dev.addr) := by
        simp [expireOne, found]
      obtain ⟨later, moves, fired, same⟩ := ih (expireOne (removed, replies, r) id)
      rw [gone] at moves fired same
      refine ⟨dev.pendingOps ++ dev.inFlight.values ++ later, ?_, ?_, ?_⟩
      · rw [List.foldl_cons, gone]
        exact .trans (.remove found) moves
      · rw [List.foldl_cons, gone, fired, List.map_append, ← List.append_assoc]
        rfl
      · rw [List.foldl_cons, gone, same]
        rfl

private theorem moves_removeByAddr (addr : SocketAddr) :
    ∃ gone, Moves r.byId gone (r.removeByAddr addr).2.2.byId ∧
      (r.removeByAddr addr).2.1 = gone.map timeoutReply ∧
      (r.removeByAddr addr).2.2.nextId = r.nextId := by
  unfold removeByAddr
  split
  · exact ⟨[], .refl, rfl, rfl⟩
  · split
    · exact ⟨[], .refl, rfl, rfl⟩
    · rename_i dev stored
      exact ⟨_, .remove stored, rfl, rfl⟩

private theorem moves_timeoutInFlight (now : Instant) (maxSecs : Nat) :
    ∃ gone, Moves r.byId gone (r.timeoutInFlight now maxSecs).2.byId ∧
      (r.timeoutInFlight now maxSecs).1 = gone.map timeoutReply ∧
      (r.timeoutInFlight now maxSecs).2.nextId = r.nextId := by
  refine ⟨_, .timeout (timedOut now maxSecs), ?_, rfl⟩
  rw [List.map_flatMap]
  rfl

/-- A call that changes nothing about the operations: devices are rewritten in
place. -/
private def Still (r next : DeviceRegistry) : Prop :=
  Moves r.byId [] next.byId ∧ next.nextId = r.nextId

private theorem still_rewritten {op : Op} (rewritten : Rewritten r op next)
    (same : ∀ id dev, (deviceAfter r id dev op).inFlight = dev.inFlight ∧
      (deviceAfter r id dev op).pendingOps = dev.pendingOps) : Still r next := by
  cases rewritten with
  | kept => exact ⟨.refl, rfl⟩
  | put held => exact ⟨.put held (same _ _).1 (.inl (same _ _).2), rfl⟩
  | map change each =>
    have here (dev : Device) := each 0 dev ▸ same 0 dev
    exact ⟨.map change (fun dev => (here dev).1) fun dev => (here dev).2, rfl⟩

private theorem still_drainPending {addr : SocketAddr} {ops : List PendingOperation}
    (ran : r.drainPending addr = some (ops, next)) : Still r next := by
  unfold drainPending at ran
  split at ran
  · cases ran
    exact ⟨.refl, rfl⟩
  · obtain ⟨dev, stored, ran⟩ := Option.bind_eq_some_iff.mp ran
    cases ran
    exact ⟨.put stored rfl (.inr rfl), rfl⟩

/-- A registration under a known endpoint keeps the device's operations; a new
endpoint gets a device without any under the next id. -/
private theorem still_or_added {now : Instant} {endpoint : String} {addr : SocketAddr}
    {reg : Registration} (ran : r.register now endpoint addr reg = some (id, next)) :
    Still r next ∨ r.byEndpoint.lookup endpoint = none ∧
      next.byId = r.byId.insert r.nextId (Device.new r.nextId endpoint addr reg now) ∧
      next.nextId = max (r.nextId + 1) 1 := by
  unfold register at ran
  split at ran
  · obtain ⟨old, _, ran⟩ := Option.bind_eq_some_iff.mp ran
    obtain ⟨dev, stored, ran⟩ := Option.bind_eq_some_iff.mp ran
    cases ran
    have same : (if old.addr ≠ addr then
          { r with byAddr := (r.byAddr.erase old.addr).insert addr id } else r).byId = r.byId ∧
        (if old.addr ≠ addr then
          { r with byAddr := (r.byAddr.erase old.addr).insert addr id } else r).nextId =
            r.nextId := by
      split <;> exact ⟨rfl, rfl⟩
    rw [same.1] at stored
    refine Or.inl ⟨?_, same.2⟩
    rw [putDevice, same.1]
    exact .put stored rfl (.inl rfl)
  · rename_i unknown
    cases ran
    exact Or.inr ⟨unknown, rfl, rfl⟩

/-- **What a call does to the operations in flight.** -/
theorem moves_apply {op : Op} (ran : r.apply op = some next) (keeps : handsOver op = false) :
    (∃ gone, Moves r.byId gone next.byId ∧ repliesOf r op = gone.map timeoutReply ∧
      next.nextId = r.nextId) ∨
    ∃ now endpoint addr reg, op = .register now endpoint addr reg ∧
      r.byEndpoint.lookup endpoint = none ∧
      next.byId = r.byId.insert r.nextId (Device.new r.nextId endpoint addr reg now) ∧
      next.nextId = max (r.nextId + 1) 1 := by
  have quiet (silent : repliesOf r op = []) (still : Still r next) :
      ∃ gone, Moves r.byId gone next.byId ∧ repliesOf r op = gone.map timeoutReply ∧
        next.nextId = r.nextId := ⟨[], still.1, silent, still.2⟩
  cases op with
  | register now endpoint addr reg =>
    obtain ⟨⟨id, registered⟩, called, same⟩ := Option.map_eq_some_iff.mp ran
    subst same
    rcases still_or_added called with still | added
    · exact Or.inl (quiet rfl still)
    · exact Or.inr ⟨now, endpoint, addr, reg, rfl, added⟩
  | placeInFlight addr token op => cases keeps
  | completeInFlight addr token => cases keeps
  | drainPending addr =>
    obtain ⟨⟨ops, drained⟩, called, same⟩ := Option.map_eq_some_iff.mp ran
    subst same
    exact Or.inl (quiet rfl (still_drainPending called))
  | expireStale now graceSecs =>
    cases ran
    exact Or.inl (moves_expireStale now graceSecs)
  | timeoutInFlight now maxSecs =>
    cases ran
    exact Or.inl (moves_timeoutInFlight now maxSecs)
  | removeByAddr addr =>
    cases ran
    exact Or.inl (moves_removeByAddr addr)
  | touch now addr =>
    refine Or.inl (quiet rfl (still_rewritten (apply_rewritten rfl ran) fun id dev => ?_))
    simp only [deviceAfter]
    split
    · split <;> exact ⟨rfl, rfl⟩
    · exact ⟨rfl, rfl⟩
  | renewRegistration | setDeviceOffline | takePingCandidates | mergeDeviceStateByAddr
  | restoreDeviceState =>
    refine Or.inl (quiet rfl (still_rewritten (apply_rewritten rfl ran) fun id dev => ?_))
    simp only [deviceAfter]
    split <;> exact ⟨rfl, rfl⟩
  | _ =>
    -- the calls that only read
    exact Or.inl (quiet rfl (still_rewritten (apply_rewritten rfl ran) fun _ _ => ⟨rfl, rfl⟩))

/-! ## Putting an operation in and taking it out -/

/-- `place_in_flight` finds a device to store the operation with. -/
def accepts (r : DeviceRegistry) (addr : SocketAddr) : Bool :=
  (r.byAddr.lookup addr).any fun id => (r.byId.lookup id).isSome

section Operation
variable {addr : SocketAddr} {token : Token} {op : PendingOperation}

theorem place_refused (refused : accepts r addr = false) (token : Token)
    (op : PendingOperation) : r.placeInFlight addr token op = r := by
  unfold placeInFlight
  split
  · rfl
  · rename_i id found
    split
    · rfl
    · rename_i dev stored
      simp [accepts, found, stored] at refused

private theorem place_accepted (accepted : accepts r addr = true) (token : Token)
    (op : PendingOperation) : ∃ id dev, r.byId.lookup id = some dev ∧
      r.placeInFlight addr token op =
        r.putDevice id { dev with inFlight := dev.inFlight.insert token op } := by
  obtain ⟨id, found, known⟩ := (Option.any_eq_true _ _).mp accepted
  obtain ⟨dev, stored⟩ := Option.isSome_iff_exists.mp known
  exact ⟨id, dev, stored, by simp [placeInFlight, found, stored]⟩

/-- Nothing but the operation joins those in flight. -/
theorem place_tidy (tidy : Tidy r.byId) (addr : SocketAddr) (op : PendingOperation) :
    Tidy (r.placeInFlight addr (tokenOfId op.id) op).byId ∧
      ∀ other ∈ held (r.placeInFlight addr (tokenOfId op.id) op).byId,
        other = op ∨ other ∈ held r.byId := by
  cases accepted : accepts r addr with
  | false =>
    rw [place_refused accepted]
    exact ⟨tidy, fun other member => Or.inr member⟩
  | true =>
    obtain ⟨id, dev, stored, placed⟩ := place_accepted accepted (tokenOfId op.id) op
    obtain ⟨empty, tokens⟩ := tidy id dev stored
    rw [placed, putDevice]
    constructor
    · intro other kept found
      rw [Table.lookup_insert_if] at found
      split at found
      · cases found
        refine ⟨empty, fun token at_ entry => ?_⟩
        rw [Table.lookup_insert_if] at entry
        split at entry
        · rename_i here
          cases entry
          exact here
        · exact tokens token at_ entry
      · exact tidy other kept found
    · intro other member
      obtain ⟨kept, inside, flying⟩ := List.mem_flatMap.mp member
      obtain ⟨key, found⟩ := Table.mem_values.mp inside
      obtain ⟨token, entry⟩ := Table.mem_values.mp flying
      rw [Table.lookup_insert_if] at found
      split at found
      · cases found
        rw [Table.lookup_insert_if] at entry
        split at entry
        · cases entry
          exact Or.inl rfl
        · exact Or.inr (List.mem_flatMap.mpr ⟨dev, Table.mem_values.mpr ⟨id, stored⟩,
            Table.mem_values.mpr ⟨token, entry⟩⟩)
      · exact Or.inr (List.mem_flatMap.mpr ⟨kept, Table.mem_values.mpr ⟨key, found⟩,
          Table.mem_values.mpr ⟨token, entry⟩⟩)

/-- An operation whose id is not in flight joins those that are. -/
theorem place_conserves (tidy : Tidy r.byId) (accepted : accepts r addr = true)
    (unused : ∀ other ∈ held r.byId, other.id ≠ op.id) :
    Tidy (r.placeInFlight addr (tokenOfId op.id) op).byId ∧
      (held (r.placeInFlight addr (tokenOfId op.id) op).byId).Perm (op :: held r.byId) := by
  refine ⟨(place_tidy tidy addr op).1, ?_⟩
  obtain ⟨id, dev, stored, placed⟩ := place_accepted accepted (tokenOfId op.id) op
  have vacant : dev.inFlight.lookup (tokenOfId op.id) = none := by
    cases occupied : dev.inFlight.lookup (tokenOfId op.id) with
    | none => rfl
    | some other =>
      have inFlight : other ∈ held r.byId :=
        List.mem_flatMap.mpr ⟨dev, Table.mem_values.mpr ⟨id, stored⟩,
          Table.mem_values.mpr ⟨_, occupied⟩⟩
      have same : op.id = other.id := tokenOfId_injective ((tidy id dev stored).2 _ other occupied)
      exact absurd same.symm (unused other inFlight)
  rw [placed, putDevice, held_insert, Table.values_insert, Table.erase_of_lookup_none vacant]
  exact (held_stored stored).symm.cons op

/-- What `complete_in_flight` hands out is no longer in flight. -/
theorem complete_conserves (tidy : Tidy r.byId) (addr : SocketAddr) (token : Token) :
    Tidy (r.completeInFlight addr token).2.byId ∧
      (held r.byId).Perm ((r.completeInFlight addr token).1.toList ++
        held (r.completeInFlight addr token).2.byId) ∧
      ∀ op ∈ (r.completeInFlight addr token).1, token = tokenOfId op.id := by
  unfold completeInFlight
  split
  · exact ⟨tidy, .refl _, by simp⟩
  · rename_i id found
    split
    · exact ⟨tidy, .refl _, by simp⟩
    · rename_i dev stored
      obtain ⟨empty, tokens⟩ := tidy id dev stored
      refine ⟨?_, ?_, fun op taken => tokens token op taken⟩
      · intro other kept held'
        rw [putDevice, Table.lookup_insert_if] at held'
        split at held'
        · cases held'
          refine ⟨empty, fun probe at_ entry => ?_⟩
          rw [Table.lookup_erase_if] at entry
          split at entry
          · cases entry
          · exact tokens probe at_ entry
        · exact tidy other kept held'
      · rw [putDevice, held_insert]
        refine (held_stored stored).trans ?_
        cases taken : dev.inFlight.lookup token with
        | none =>
          rw [Table.erase_of_lookup_none taken]
          exact .refl _
        | some op =>
          rw [← List.append_assoc]
          exact (Table.values_perm_erase taken).append_right _

end Operation

/-! ## The registry with the code around it -/

/-- The registry, the operations `place_in_flight` has stored, the packets the
handlers have processed and the replies fired, newest first. -/
structure Ledger where
  devices : DeviceRegistry
  channels : Nat := 0
  stored : List PendingOperation := []
  acks : List Packet := []
  resets : List Packet := []
  replies : List Reply := []

/-- One registry call or one handler that makes one. -/
inductive LedgerAction where
  | call (op : Op)
  /-- `dispatch_op`, for an operation that is not sent block-wise. -/
  | dispatch (now : Instant) (addr : SocketAddr) (id : UInt32) (command : LwM2mCommand)
  /-- `handle_ack`, once no bootstrap exchange or block transfer took the ACK. -/
  | ack (packet : Packet) (addr : SocketAddr)
  /-- The reset branch of `handle_packet`, likewise. -/
  | reset (packet : Packet) (addr : SocketAddr)
  /-- A retransmission task gives up. -/
  | giveUp (addr : SocketAddr) (id : UInt32)

namespace Ledger

/-- `op.response_tx.send(result)` for an operation just taken out. -/
def answer (op : Option PendingOperation) (result : LwM2mResult) : List Reply :=
  op.toList.map fun op => (op.responseTx, result)

/-- The operation `dispatch_op` places: every operation is created with a
response channel of its own. -/
def operation (l : Ledger) (now : Instant) (id : UInt32) (command : LwM2mCommand) :
    PendingOperation :=
  { PendingOperation.new id command l.channels now with attempts := 1 }

def step (l : Ledger) : LedgerAction → Option Ledger
  | .call op =>
    if handsOver op then none
    else (l.devices.apply op).map fun devices =>
      { l with devices, replies := repliesOf l.devices op ++ l.replies }
  | .dispatch now addr id command =>
    let op := l.operation now id command
    some { l with
      devices := l.devices.placeInFlight addr (tokenOfId id) op
      channels := l.channels + 1
      stored := if accepts l.devices addr then op :: l.stored else l.stored }
  | .ack packet addr =>
    let (op, devices) := l.devices.completeInFlight addr (tokenArray packet.token)
    some { l with
      devices
      acks := packet :: l.acks
      replies := answer op (coapResponseToResult packet) ++ l.replies }
  | .reset packet addr =>
    let (op, devices) := l.devices.completeInFlight addr (tokenArray packet.token)
    some { l with
      devices
      resets := packet :: l.resets
      replies := answer op (.error (.coapError 5 0)) ++ l.replies }
  | .giveUp addr id =>
    let (op, devices) := l.devices.completeInFlight addr (tokenOfId id)
    some { l with devices, replies := answer op (.error .timeout) ++ l.replies }

/-- The results fired on a channel. -/
def answers (l : Ledger) (channel : Nat) : List LwM2mResult :=
  (l.replies.filter (·.1 = channel)).map (·.2)

/-- A result an operation may be answered with: that of an ACK for its token,
the error of an RST for its token, or a timeout. -/
def Mapped (l : Ledger) (op : PendingOperation) (result : LwM2mResult) : Prop :=
  (∃ packet ∈ l.acks, tokenArray packet.token = tokenOfId op.id ∧
      result = coapResponseToResult packet) ∨
    (∃ packet ∈ l.resets, tokenArray packet.token = tokenOfId op.id ∧
      result = .error (.coapError 5 0)) ∨
    result = .error .timeout

end Ledger

/-- Started from an empty registry or from restored devices. -/
def ledger : Machine Ledger LedgerAction where
  start l := ∃ now snapshots, (∀ s ∈ snapshots, s.id.toNat + 1 < 2 ^ 32) ∧
    l = { devices := DeviceRegistry.new.restore now snapshots }
  step := Ledger.step

/-- Operations have distinct ids and the registration counter does not wrap. -/
def DistinctIds (l : Ledger) : LedgerAction → Prop
  | .call op => NextIdDoesNotWrap l.devices op
  | .dispatch _ _ id _ => ∀ op ∈ l.stored, op.id ≠ id
  | _ => True

instance (l : Ledger) (action : LedgerAction) : Decidable (DistinctIds l action) := by
  cases action <;> unfold DistinctIds <;> infer_instance

/-- What every run keeps: the operations stored are those in flight and those
answered, each answer on the operation's own channel. -/
structure Conserved (l : Ledger) : Prop where
  allocated : Allocated l.devices
  tidy : Tidy l.devices.byId
  named : ∀ op ∈ l.stored, op.responseTx < l.channels
  distinct : (l.stored.map (·.responseTx)).Nodup
  parts : ∃ answered : List (PendingOperation × LwM2mResult),
    l.stored.Perm (held l.devices.byId ++ answered.map (·.1)) ∧
      l.replies = answered.map (fun entry => (entry.1.responseTx, entry.2)) ∧
      ∀ entry ∈ answered, l.Mapped entry.1 entry.2

/-- A step that stores nothing: some operations leave the tables and are
answered. -/
theorem Conserved.settle {l l' : Ledger} (inv : Conserved l)
    (gone : List (PendingOperation × LwM2mResult)) (stored : l'.stored = l.stored)
    (channels : l'.channels = l.channels) (allocated : Allocated l'.devices)
    (tidy : Tidy l'.devices.byId)
    (moved : (held l.devices.byId).Perm (gone.map (·.1) ++ held l'.devices.byId))
    (replies : l'.replies = gone.map (fun entry => (entry.1.responseTx, entry.2)) ++ l.replies)
    (mapped : ∀ entry ∈ gone, l'.Mapped entry.1 entry.2)
    (grows : ∀ op result, l.Mapped op result → l'.Mapped op result) : Conserved l' where
  allocated := allocated
  tidy := tidy
  named := by
    rw [stored, channels]
    exact inv.named
  distinct := by
    rw [stored]
    exact inv.distinct
  parts := by
    obtain ⟨answered, parts, fired, earlier⟩ := inv.parts
    refine ⟨gone ++ answered, ?_, ?_, ?_⟩
    · rw [stored, List.map_append]
      calc
        List.Perm l.stored (held l.devices.byId ++ answered.map (·.1)) := parts
        List.Perm _ (gone.map (·.1) ++ held l'.devices.byId ++ answered.map (·.1)) :=
          moved.append_right _
        List.Perm _ (held l'.devices.byId ++ gone.map (·.1) ++ answered.map (·.1)) :=
          List.perm_append_comm.append_right _
        List.Perm _ (held l'.devices.byId ++ (gone.map (·.1) ++ answered.map (·.1))) :=
          .of_eq (List.append_assoc ..)
    · rw [replies, fired, List.map_append]
    · intro entry member
      rcases List.mem_append.mp member with new | old
      · exact mapped entry new
      · exact grows _ _ (earlier entry old)

private theorem allocated_of_moves (allocated : Allocated r) (moves : Moves r.byId gone next.byId)
    (same : next.nextId = r.nextId) : Allocated next := by
  intro id dev found
  obtain ⟨old, stored⟩ := moves_known moves found
  rw [same]
  exact allocated id old stored

private theorem conserved_call {l l' : Ledger} {op : Op} (inv : Conserved l)
    (nowrap : NextIdDoesNotWrap l.devices op) (ran : l.step (.call op) = some l') :
    Conserved l' := by
  simp only [Ledger.step] at ran
  split at ran
  · cases ran
  · rename_i keeps
    obtain ⟨devices, called, rfl⟩ := Option.map_eq_some_iff.mp ran
    rcases moves_apply called (by simpa using keeps) with
      ⟨gone, moves, fired, same⟩ | ⟨now, endpoint, addr, reg, rfl, unknown, added, advanced⟩
    · obtain ⟨tidy, moved⟩ := moves_conserve moves inv.tidy
      refine inv.settle (gone.map fun op => (op, .error .timeout)) rfl rfl
        (allocated_of_moves inv.allocated moves same) tidy (by simpa [Function.comp_def] using moved) ?_ ?_
        fun _ _ mapped => mapped
      · simp only [fired, List.map_map]
        rfl
      · intro entry member
        obtain ⟨op, _, rfl⟩ := List.mem_map.mp member
        exact Or.inr (Or.inr rfl)
    · have free := Allocated.free inv.allocated
      have next := advanced_toNat (nowrap endpoint rfl unknown)
      have table : devices.byId =
          l.devices.byId.insert l.devices.nextId
            (Device.new l.devices.nextId endpoint addr reg now) := added
      refine inv.settle [] rfl rfl ?_ ?_ ?_ rfl (by simp) fun _ _ mapped => mapped
      · have below : l.devices.nextId.toNat < devices.nextId.toNat := by
          rw [advanced, next]
          exact Nat.lt_succ_self _
        intro other kept found
        simp only [table, Table.lookup_insert_if] at found
        split at found
        · rename_i mine
          rw [mine]
          exact below
        · exact Nat.lt_trans (inv.allocated other kept found) below
      · intro other kept found
        simp only [table, Table.lookup_insert_if] at found
        split at found
        · cases found
          exact ⟨rfl, fun token op entry => by simp [Device.new] at entry⟩
        · exact inv.tidy other kept found
      · simp only [table, held_insert, Table.erase_of_lookup_none free]
        exact .refl _

private theorem conserved_dispatch {l : Ledger} {now : Instant} {addr : SocketAddr} {id : UInt32}
    {command : LwM2mCommand} (inv : Conserved l) (new : ∀ op ∈ l.stored, op.id ≠ id) :
    Conserved { l with
      devices := l.devices.placeInFlight addr (tokenOfId id) (l.operation now id command)
      channels := l.channels + 1
      stored := if accepts l.devices addr then l.operation now id command :: l.stored
        else l.stored } := by
  obtain ⟨answered, parts, fired, mapped⟩ := inv.parts
  cases accepted : accepts l.devices addr with
  | false =>
    simp only [place_refused accepted]
    exact ⟨inv.allocated, inv.tidy, fun op member => Nat.lt_succ_of_lt (inv.named op member),
      inv.distinct, answered, parts, fired, mapped⟩
  | true =>
    have unused : ∀ other ∈ held l.devices.byId, other.id ≠ (l.operation now id command).id :=
      fun other inFlight => new other (parts.mem_iff.mpr (List.mem_append_left _ inFlight))
    obtain ⟨tidy, placed⟩ := place_conserves inv.tidy accepted unused
    refine ⟨?_, tidy, ?_, ?_, answered, ?_, fired, mapped⟩
    · exact allocated_quiet inv.allocated (quiet_changeByAddr addr _ fun _ => ⟨rfl, rfl, rfl⟩)
    · intro op member
      rcases List.mem_cons.mp member with rfl | old
      · exact Nat.lt_succ_self _
      · exact Nat.lt_succ_of_lt (inv.named op old)
    · refine List.nodup_cons.mpr ⟨fun member => ?_, inv.distinct⟩
      obtain ⟨op, old, same⟩ := List.mem_map.mp member
      exact absurd same (Nat.ne_of_lt (inv.named op old))
    · exact (parts.cons _).trans (placed.symm.append_right _)

private theorem conserved_complete {l : Ledger} (inv : Conserved l) (addr : SocketAddr)
    (token : Token) (result : LwM2mResult) (acks resets : List Packet)
    (grows : ∀ op result, l.Mapped op result → Ledger.Mapped { l with acks, resets } op result)
    (mapped : ∀ op : PendingOperation, token = tokenOfId op.id →
      Ledger.Mapped { l with acks, resets } op result) :
    Conserved { l with
      devices := (l.devices.completeInFlight addr token).2
      acks, resets
      replies := Ledger.answer (l.devices.completeInFlight addr token).1 result ++ l.replies } := by
  obtain ⟨tidy, moved, tokens⟩ := complete_conserves inv.tidy addr token
  refine inv.settle ((l.devices.completeInFlight addr token).1.toList.map fun op => (op, result))
    rfl rfl (allocated_quiet inv.allocated (quiet_completeInFlight addr token)) tidy ?_ ?_ ?_ ?_
  · simpa [Function.comp_def] using moved
  · simp [Ledger.answer, Function.comp_def]
  · intro entry member
    obtain ⟨op, taken, rfl⟩ := List.mem_map.mp member
    exact mapped op (tokens op (Option.mem_toList.mp taken))
  · exact grows

/-- **One step keeps every operation accounted for.** -/
theorem conserved_step {l l' : Ledger} {action : LedgerAction} (inv : Conserved l)
    (distinct : DistinctIds l action) (ran : l.step action = some l') : Conserved l' := by
  cases action with
  | call op => exact conserved_call inv distinct ran
  | dispatch now addr id command =>
    cases ran
    exact conserved_dispatch inv distinct
  | ack packet addr =>
    cases ran
    refine conserved_complete inv addr _ _ (packet :: l.acks) l.resets ?_ ?_
    · rintro op result (⟨seen, member, same⟩ | other)
      · exact Or.inl ⟨seen, List.mem_cons_of_mem _ member, same⟩
      · exact Or.inr other
    · exact fun op same => Or.inl ⟨packet, List.mem_cons_self, same, rfl⟩
  | reset packet addr =>
    cases ran
    refine conserved_complete inv addr _ _ l.acks (packet :: l.resets) ?_ ?_
    · rintro op result (acked | ⟨seen, member, same⟩ | late)
      · exact Or.inl acked
      · exact Or.inr (Or.inl ⟨seen, List.mem_cons_of_mem _ member, same⟩)
      · exact Or.inr (Or.inr late)
    · exact fun op same => Or.inr (Or.inl ⟨packet, List.mem_cons_self, same, rfl⟩)
  | giveUp addr id =>
    cases ran
    exact conserved_complete inv addr _ _ l.acks l.resets (fun _ _ mapped => mapped)
      fun _ _ => Or.inr (Or.inr rfl)

/-! ## Whole runs -/

private theorem restored_empty {now : Instant} {snapshots : List DeviceSnapshot}
    (before : ∀ id dev, r.byId.lookup id = some dev → dev.pendingOps = [] ∧ dev.inFlight = ∅) :
    ∀ id dev, (r.restore now snapshots).byId.lookup id = some dev →
      dev.pendingOps = [] ∧ dev.inFlight = ∅ := by
  induction snapshots generalizing r with
  | nil => exact before
  | cons s rest ih =>
    refine ih (r := r.restoreOne now s) fun id dev found => ?_
    simp only [restoreOne, Table.lookup_insert_if] at found
    split at found
    · cases found
      exact ⟨rfl, rfl⟩
    · exact before id dev found

/-- A restored registry holds no operations. -/
theorem restored_tidy (now : Instant) (snapshots : List DeviceSnapshot) :
    Tidy (DeviceRegistry.new.restore now snapshots).byId ∧
      held (DeviceRegistry.new.restore now snapshots).byId = [] := by
  have empty : ∀ id dev, (DeviceRegistry.new.restore now snapshots).byId.lookup id = some dev →
      dev.pendingOps = [] ∧ dev.inFlight = ∅ :=
    restored_empty fun id dev found => by simp [new] at found
  constructor
  · intro id dev stored
    refine ⟨(empty id dev stored).1, fun token op entry => ?_⟩
    rw [(empty id dev stored).2] at entry
    simp at entry
  · refine List.flatMap_eq_nil_iff.mpr fun dev member => ?_
    obtain ⟨id, stored⟩ := Table.mem_values.mp member
    rw [(empty id dev stored).2]
    rfl

theorem conserved_start {l : Ledger} (initial : ledger.start l) : Conserved l := by
  obtain ⟨now, snapshots, nowrap, rfl⟩ := initial
  obtain ⟨tidy, none⟩ := restored_tidy now snapshots
  exact ⟨allocated_restore now snapshots (fun id dev found => by simp [new] at found) nowrap, tidy,
    by simp, by simp, [], by simp [none], rfl, by simp⟩

theorem reached_conserved {l : Ledger} (reached : ledger.Reaches DistinctIds l) : Conserved l :=
  reached.invariant Conserved (fun _ initial => conserved_start initial)
    fun _ _ _ _ inv distinct ran => conserved_step inv distinct ran

/-- An operation that occurs once among those in flight is in one place. -/
theorem place_unique {op : PendingOperation} {first second : UInt32 × Token}
    (tidy : Tidy r.byId) (once : (held r.byId).Nodup) (one : Holds r first op)
    (two : Holds r second op) : first = second := by
  obtain ⟨dev, stored, entry⟩ := one
  obtain ⟨dev', stored', entry'⟩ := two
  have tokens : first.2 = second.2 :=
    ((tidy _ _ stored).2 _ _ entry).trans ((tidy _ _ stored').2 _ _ entry').symm
  refine Prod.ext (Classical.byContradiction fun apart => ?_) tokens
  have other : op ∈ held (r.byId.erase first.1) := by
    refine List.mem_flatMap.mpr ⟨dev', Table.mem_values.mpr ⟨second.1, ?_⟩,
      Table.mem_values.mpr ⟨second.2, entry'⟩⟩
    rw [Table.lookup_erase_if, if_neg (Ne.symm apart)]
    exact stored'
  have split := (held_stored stored).nodup_iff.mp once
  exact (List.nodup_append.mp split).2.2 op (Table.mem_values.mpr ⟨first.2, entry⟩) op other rfl

/-- The answers on the channel of one of several operations with channels of
their own. -/
private theorem answers_single {answered : List (PendingOperation × LwM2mResult)}
    {entry : PendingOperation × LwM2mResult}
    (distinct : (answered.map fun entry => entry.1.responseTx).Nodup) (member : entry ∈ answered) :
    answered.filter (fun other => other.1.responseTx = entry.1.responseTx) = [entry] := by
  induction answered with
  | nil => cases member
  | cons head rest ih =>
    obtain ⟨new, distinct⟩ := List.nodup_cons.mp distinct
    rcases List.mem_cons.mp member with rfl | old
    · have others : rest.filter (fun other => other.1.responseTx = entry.1.responseTx) = [] := by
        refine List.filter_eq_nil_iff.mpr fun other inRest same => new ?_
        exact List.mem_map.mpr ⟨other, inRest, of_decide_eq_true same⟩
      rw [List.filter_cons_of_pos (by simp), others]
    · have apart : head.1.responseTx ≠ entry.1.responseTx := fun same =>
        new (List.mem_map.mpr ⟨entry, old, same.symm⟩)
      rw [List.filter_cons_of_neg (by simpa using apart)]
      exact ih distinct old

/-- **No operation is lost or answered twice.** At every moment of every run an
operation that was stored is in exactly one device's table and unanswered, or
in none and its channel has been fired exactly once. -/
theorem stored_operation_settled {l : Ledger} (reached : ledger.Reaches DistinctIds l)
    {op : PendingOperation} (stored : op ∈ l.stored) :
    (∃! place, Holds l.devices place op) ∧ l.answers op.responseTx = [] ∨
      (∀ place, ¬ Holds l.devices place op) ∧
        ∃ result, l.answers op.responseTx = [result] ∧ l.Mapped op result := by
  have inv := reached_conserved reached
  obtain ⟨answered, parts, fired, mapped⟩ := inv.parts
  have channels : ((held l.devices.byId ++ answered.map (·.1)).map (·.responseTx)).Nodup :=
    (parts.map _).nodup_iff.mp inv.distinct
  obtain ⟨once, _, apart⟩ := List.nodup_append.mp (List.Nodup.of_map _ channels)
  have answers (channel : Nat) : l.answers channel =
      (answered.filter fun entry => entry.1.responseTx = channel).map (·.2) := by
    rw [Ledger.answers, fired, List.filter_map, List.map_map]
    rfl
  have answeredChannels : (answered.map fun entry => entry.1.responseTx).Nodup := by
    rw [List.map_append, List.map_map] at channels
    exact (List.nodup_append.mp channels).2.1
  rcases List.mem_append.mp (parts.mem_iff.mp stored) with inFlight | done
  · refine Or.inl ⟨?_, ?_⟩
    · obtain ⟨dev, member, entry⟩ := List.mem_flatMap.mp inFlight
      obtain ⟨id, held⟩ := Table.mem_values.mp member
      obtain ⟨token, entry⟩ := Table.mem_values.mp entry
      exact ⟨(id, token), ⟨dev, held, entry⟩, fun other at_ =>
        place_unique inv.tidy once at_ ⟨dev, held, entry⟩⟩
    · rw [answers, List.map_eq_nil_iff]
      refine List.filter_eq_nil_iff.mpr fun entry member same => ?_
      have inAnswered : entry.1 ∈ answered.map (·.1) := List.mem_map_of_mem member
      have equal : entry.1 = op :=
        List.inj_on_of_nodup_map channels (List.mem_append_right _ inAnswered)
          (List.mem_append_left _ inFlight) (of_decide_eq_true same)
      exact apart op inFlight entry.1 inAnswered equal.symm
  · obtain ⟨entry, member, rfl⟩ := List.mem_map.mp done
    refine Or.inr ⟨?_, entry.2, ?_, mapped entry member⟩
    · rintro ⟨id, token⟩ ⟨dev, held, at_⟩
      have inFlight : entry.1 ∈ InFlight.held l.devices.byId :=
        List.mem_flatMap.mpr ⟨dev, Table.mem_values.mpr ⟨id, held⟩,
          Table.mem_values.mpr ⟨token, at_⟩⟩
      exact apart entry.1 inFlight entry.1 done rfl
    · rw [answers, answers_single answeredChannels member]
      rfl

/-- The acknowledgement of the operation with an id. -/
def acknowledgement (id : UInt32) : Packet :=
  { type := .acknowledgement, code := .response .changed, messageId := 1
    token := (tokenOfId id).toList }

/-- Three operations go to a device; it answers the first from a new address,
one is given up there, and the last waits until the device leaves. -/
def movingDevice : List LedgerAction :=
  [.call (.register 1 "mower" (.v4 1 20017) ⟨60, [], ∅, "1.1", "U"⟩),
    .dispatch 2 (.v4 1 20017) 1 (.read ⟨3, 0, 9⟩), .dispatch 2 (.v4 1 20017) 2 (.read ⟨3, 0, 9⟩),
    .dispatch 2 (.v4 1 20017) 3 (.read ⟨3, 0, 9⟩),
    .call (.register 3 "mower" (.v4 2 20017) ⟨60, [], ∅, "1.1", "U"⟩),
    .ack (acknowledgement 1) (.v4 2 20017), .giveUp (.v4 1 20017) 2, .giveUp (.v4 2 20017) 2,
    .ack (acknowledgement 1) (.v4 2 20017), .call (.removeByAddr (.v4 2 20017))]

theorem moving_device_settled :
    ∃ l, ledger.exec DistinctIds { devices := .new } movingDevice = some l ∧
      l.stored.length = 3 ∧ ∀ op ∈ l.stored,
        (∃! place, Holds l.devices place op) ∧ l.answers op.responseTx = [] ∨
          (∀ place, ¬ Holds l.devices place op) ∧
            ∃ result, l.answers op.responseTx = [result] ∧ l.Mapped op result := by
  have empty : ledger.start { devices := .new } := ⟨0, [], by simp, rfl⟩
  obtain ⟨l, ran, reached, seen⟩ := ledger.exec_reaches DistinctIds _ movingDevice
    (fun l => l.stored.length = 3) empty (by decide +kernel)
  exact ⟨l, ran, of_decide_eq_true seen, fun op stored => stored_operation_settled reached stored⟩

end Lwm2mServer.InFlight
