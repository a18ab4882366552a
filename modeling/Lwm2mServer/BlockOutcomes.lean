import Mathlib.Data.Finset.Card
import Mathlib.Data.Finset.Range
import Lwm2mServer.BlockStream
import Lwm2mServer.Ipc

/-! How one block-wise write ends. For every transmission of a block the
outcome is one of four: an acknowledgement with the token comes, the sender is
dropped by a reset, nothing comes in time, or the socket refuses the datagram.
A stream of outcomes decides the whole write. What it does in a step is said
once, by `Turn`; that the write ends, what it answered and how often it sent
are invariants of these turns. -/
namespace Lwm2mServer.BlockOutcomes
open Library BlockAcks BlockTransfer BlockStream

/-- What becomes of one transmission of a block. Packets have the token of the
write, whatever is in the token field here. -/
inductive Outcome where
  | response (packet : Packet)
  | dropped (reset : Packet)
  | timeout
  | sendError

/-- The code of a 2.xx response other than 2.31. -/
def completes : MessageClass → Bool
  | .response .continue => false
  | .response status => decide ((responseTypeToClassDetail status).1 = 2)
  | _ => false

namespace Outcome

def sent : Outcome → Bool
  | .sendError => false
  | _ => true

def completes : Outcome → Bool
  | .response packet => BlockOutcomes.completes packet.code
  | _ => false

end Outcome

/-- A transmission: the block it is of, by its offset, and what became of it. -/
structure Transmission where
  start : Nat
  more : Bool
  outcome : Outcome

/-- A block-wise write, the server it runs in, and the outcomes to come. -/
structure Transfer where
  server : Server
  task : BlockWrite
  outcomes : Nat → Outcome
  /-- Every datagram given to the socket, oldest first. -/
  sent : List Transmission := []
  /-- What was sent on `first_ack_tx` and `response_tx`, oldest first. -/
  answers : List Reply := []

/-- The receive loop comes to the map of block acknowledgements with a packet
of this write. -/
def arrive (env : Env) (s : Server) (task : BlockWrite) : Outcome → Option Server
  | .response packet =>
    { s with recv := .ackBlock { packet with token := task.token.toList } task.addr }.step env (.recv {})
  | .dropped reset =>
    { s with recv := .rstBlock { reset with token := task.token.toList } task.addr }.step env (.recv {})
  | .timeout | .sendError => some s

namespace Transfer

/-- One step of the write. A transmission takes the next outcome off the
stream; a wait ends with what that outcome left in the channel. -/
def step (env : Env) (t : Transfer) : Option Transfer := do
  let outcome ← t.task.step env t.server { sent := (t.outcomes 0).sent, timeout := true }
  let server ← Gateway.call env t.server outcome.call
  let next := { t with server, task := outcome.task, answers := t.answers ++ outcome.answers }
  match t.task.pc with
  | .send block _ =>
    let server ← arrive env server t.task (t.outcomes 0)
    return { next with
      server
      outcomes := fun n => t.outcomes (n + 1)
      sent := t.sent ++ [⟨t.task.offset, block.more, t.outcomes 0⟩] }
  | _ => return next

/-- The write after so many steps, or at its end. -/
def run (env : Env) (t : Transfer) : Nat → Transfer
  | 0 => t
  | n + 1 => ((run env t n).step env).getD (run env t n)

/-- The write of a payload as `dispatch_op` spawns it. -/
def spawned (server : Server) (addr : SocketAddr) (op : PendingOperation) (path : ResourcePath)
    (payload : Bytes) (contentFormat mid : UInt16) (outcomes : Nat → Outcome) : Transfer where
  server := server
  task := Link.spawned addr op path payload contentFormat mid
  outcomes := outcomes

def goto (t : Transfer) (pc : BlockPc) : Transfer := { t with task := { t.task with pc } }

/-- The result goes out on `response_tx`. -/
def finish (t : Transfer) (result : LwM2mResult) (pc : BlockPc) : Transfer :=
  { t.goto pc with answers := t.answers ++ [(t.task.responseTx, result)] }

/-- A block was answered by 2.31 and more follow. -/
def proceed (t : Transfer) (block : Block) (szx : UInt8) : Transfer :=
  { t with
    task := { t.task with firstAckTx := none, szx, offset := block.stop, pc := .next }
    answers := t.answers ++ (t.task.firstAckTx.map fun tx => (tx, .ok (.coapResponse 2 31))).toList }

/-- A block was handed to the socket. -/
def transmit (t : Transfer) (block : Block) (pc : BlockPc) (server : Server) : Transfer :=
  { t.goto pc with
    server
    outcomes := fun n => t.outcomes (n + 1)
    sent := t.sent ++ [⟨t.task.offset, block.more, t.outcomes 0⟩] }

@[simp] theorem goto_pc (t : Transfer) (pc : BlockPc) : (t.goto pc).task.pc = pc := rfl

@[simp] theorem finish_pc (t : Transfer) (result : LwM2mResult) (pc : BlockPc) :
    (t.finish result pc).task.pc = pc := rfl

@[simp] theorem proceed_pc (t : Transfer) (block : Block) (szx : UInt8) :
    (t.proceed block szx).task.pc = .next := rfl

@[simp] theorem transmit_pc (t : Transfer) (block : Block) (pc : BlockPc) (server : Server) :
    (t.transmit block pc server).task.pc = pc := rfl

end Transfer

/-- The answer to a block: what the task does with a final one. -/
def verdict (status : Status) : LwM2mResult :=
  let (class_, detail) := responseTypeToClassDetail status
  if class_ = 2 then .ok (.coapResponse class_ detail) else .error (.coapError class_ detail)

/-- All that a step of the write can do. -/
inductive Turn (env : Env) (t : Transfer) : Transfer → Prop where
  | refused (pc : t.task.pc = .next) (inside : t.task.offset < t.task.payload.length) :
      Turn env t (t.finish (.error .badRequest) .ended)
  | takes (block : Block) (mid : UInt16) (pc : t.task.pc = .next) (first : block.retransmits = 0)
      (at_ : AtBlock t.task block) :
      Turn env t { t with task := { t.task with mid, pc := .arm block } }
  /-- The loop over the payload is over. -/
  | leaves (pc : t.task.pc = .next) (outside : ¬ t.task.offset < t.task.payload.length) :
      Turn env t (t.goto .ended)
  | arms (block : Block) (pc : t.task.pc = .arm block) (server : Server)
      (ran : t.server.step env (.client (.armBlock t.task.token)) = some server) :
      Turn env t { t.goto (.send block t.server.blockChannels.next) with server }
  | sends (block : Block) (channel : Nat) (pc : t.task.pc = .send block channel)
      (out : (t.outcomes 0).sent) (server : Server)
      (arrived : arrive env t.server t.task (t.outcomes 0) = some server) :
      Turn env t (t.transmit block (.wait block channel) server)
  | fails (block : Block) (channel : Nat) (pc : t.task.pc = .send block channel)
      (out : (t.outcomes 0) = .sendError) :
      Turn env t (t.transmit block (.disarm block false) t.server)
  | unexpected (block : Block) (channel : Nat) (packet : Packet) (pc : t.task.pc = .wait block channel)
      (cell : t.server.blockChannels.cell channel = .sent packet)
      (code : packet.code = .response .continue ∧ block.more = false ∨
        ∀ status, packet.code ≠ .response status) :
      Turn env t (t.finish (.error (.coapError 5 0)) .ended)
  | proceeds (block : Block) (channel : Nat) (packet : Packet) (szx : UInt8)
      (pc : t.task.pc = .wait block channel)
      (cell : t.server.blockChannels.cell channel = .sent packet)
      (code : packet.code = .response .continue) (more : block.more = true)
      (smaller : szx ≤ t.task.szx) : Turn env t (t.proceed block szx)
  | final (block : Block) (channel : Nat) (packet : Packet) (status : Status)
      (pc : t.task.pc = .wait block channel)
      (cell : t.server.blockChannels.cell channel = .sent packet)
      (code : packet.code = .response status) (other : status ≠ .continue) :
      Turn env t (t.finish (verdict status) .ended)
  | closed (block : Block) (channel : Nat) (pc : t.task.pc = .wait block channel)
      (cell : t.server.blockChannels.cell channel = .closed) :
      Turn env t (t.finish (.error (.coapError 5 0)) .ended)
  | silence (block : Block) (channel : Nat) (pc : t.task.pc = .wait block channel)
      (cell : t.server.blockChannels.cell channel = .waiting) :
      Turn env t (t.goto (.disarm block true))
  | again (block : Block) (pc : t.task.pc = .disarm block true)
      (few : block.retransmits + 1 < Client.maxRetransmit) (server : Server)
      (ran : t.server.step env (.client (.disarmBlock t.task.token)) = some server) :
      Turn env t { t.goto (.arm { block with retransmits := block.retransmits + 1 }) with server }
  | givesUp (block : Block) (timedOut : Bool) (pc : t.task.pc = .disarm block timedOut) (server : Server)
      (ran : t.server.step env (.client (.disarmBlock t.task.token)) = some server) :
      Turn env t { t.finish (.error .timeout) .markOffline with server }
  /-- The device is marked offline, which may have to be reported. -/
  | reports (pc : t.task.pc = .markOffline ∨ ∃ endpoint, t.task.pc = .report endpoint) (pc' : BlockPc)
      (now : pc' = .ended ∨ t.task.pc = .markOffline ∧ ∃ endpoint, pc' = .report endpoint)
      (server : Server) (acks : server.blockAcks = t.server.blockAcks)
      (channels : server.blockChannels = t.server.blockChannels) :
      Turn env t { t.goto pc' with server }

variable {env : Env} {t next : Transfer}

/-! ## One step -/

/-- The answer to a block is a turn, and no call to the server. -/
private theorem turn_received (env : Env) {block : Block} {channel : Nat} {packet : Packet}
    (pc : t.task.pc = .wait block channel)
    (cell : t.server.blockChannels.cell channel = .sent packet) :
    (t.task.received block packet).call = none ∧
    Turn env t { t with
      task := (t.task.received block packet).task
      answers := t.answers ++ (t.task.received block packet).answers } := by
  unfold BlockWrite.received
  split
  · rename_i code
    split
    · rename_i last
      exact ⟨rfl, .unexpected block channel packet pc cell (Or.inl ⟨code, by simpa using last⟩)⟩
    · rename_i more
      refine ⟨rfl, .proceeds block channel packet _ pc cell code (by simpa using more) ?_⟩
      split
      · rename_i smaller
        exact UInt8.le_of_lt smaller
      · exact UInt8.le_refl _
  · rename_i status other code
    refine ⟨rfl, .final block channel packet status pc cell code ?_⟩
    rintro rfl
    exact other rfl
  · rename_i other _ code
    exact ⟨rfl, .unexpected block channel packet pc cell (Or.inr code)⟩

theorem turn_of_step (ran : t.step env = some next) : Turn env t next := by
  obtain ⟨outcome, moved, ran⟩ := Option.bind_eq_some_iff.mp ran
  obtain ⟨server, called, ran⟩ := Option.bind_eq_some_iff.mp ran
  cases pc : t.task.pc with
  | next =>
    simp only [pc, Option.pure_def, Option.some.injEq] at ran
    simp only [BlockWrite.step, pc] at moved
    split at moved
    · rename_i inside
      split at moved
      · cases moved
        cases called
        exact ran ▸ .refused pc inside
      · cases moved
        cases called
        rw [← ran, List.append_nil]
        exact .takes _ _ pc rfl ⟨inside, rfl, rfl, rfl, rfl⟩
    · rename_i outside
      cases moved
      cases called
      rw [← ran, List.append_nil]
      exact .leaves pc outside
  | arm block =>
    simp only [pc, Option.pure_def, Option.some.injEq] at ran
    simp only [BlockWrite.step, pc, Option.some.injEq] at moved
    subst moved
    rw [← ran, List.append_nil]
    exact .arms block pc server called
  | send block channel =>
    simp only [pc] at ran
    simp only [BlockWrite.step, pc, Option.some.injEq] at moved
    subst moved
    cases called
    obtain ⟨server, arrived, ran⟩ := Option.bind_eq_some_iff.mp ran
    rw [Option.pure_def, Option.some.injEq] at ran
    rw [← ran, List.append_nil]
    cases out : (t.outcomes 0).sent with
    | true => exact .sends block channel pc out server arrived
    | false =>
      have refused : t.outcomes 0 = .sendError := by
        cases made : t.outcomes 0 with
        | sendError => rfl
        | _ => simp [made, Outcome.sent] at out
      rw [refused] at arrived
      cases arrived
      exact .fails block channel pc refused
  | wait block channel =>
    simp only [pc, Option.pure_def, Option.some.injEq] at ran
    simp only [BlockWrite.step, pc] at moved
    split at moved
    · rename_i packet cell
      cases moved
      obtain ⟨silent, turn⟩ := turn_received env pc cell
      rw [silent] at called
      cases called
      exact ran ▸ turn
    · rename_i cell
      cases moved
      cases called
      exact ran ▸ .closed block channel pc cell
    · rename_i cell
      rw [if_pos trivial] at moved
      cases moved
      cases called
      rw [← ran, List.append_nil]
      exact .silence block channel pc cell
  | disarm block timedOut =>
    simp only [pc, Option.pure_def, Option.some.injEq] at ran
    simp only [BlockWrite.step, pc] at moved
    split at moved
    · rename_i few
      cases moved
      obtain ⟨rfl, few⟩ := few
      rw [← ran, List.append_nil]
      exact .again block pc few server called
    · cases moved
      exact ran ▸ .givesUp block timedOut pc server called
  | markOffline =>
    simp only [pc, Option.pure_def, Option.some.injEq] at ran
    simp only [BlockWrite.step, pc, Option.some.injEq] at moved
    subst moved
    cases called
    rw [← ran, List.append_nil]
    refine .reports (Or.inl pc) _ ?_ _ rfl rfl
    split
    · exact Or.inr ⟨pc, _, rfl⟩
    · exact Or.inl rfl
  | report endpoint =>
    simp only [pc, Option.pure_def, Option.some.injEq] at ran
    simp only [BlockWrite.step, pc, Option.some.injEq] at moved
    subst moved
    cases called
    rw [← ran, List.append_nil]
    exact .reports (Or.inr ⟨endpoint, pc⟩) .ended (Or.inl rfl) _ rfl rfl
  | ended => simp [BlockWrite.step, pc] at moved

/-! ## The map of block acknowledgements -/

/-- What an outcome leaves in the map under the token and in the channel that
was put there. -/
def Left (s : Server) (token : Token) (channel : Nat) : Outcome → Prop
  | .response packet => s.blockAcks.lookup token = none ∧
      s.blockChannels.cell channel = .sent { packet with token := token.toList }
  | .dropped _ => s.blockAcks.lookup token = none ∧ s.blockChannels.cell channel = .closed
  | .timeout => s.blockChannels.cell channel = .waiting
  | .sendError => False

/-- While a transmission is under way the map has its channel under the token;
otherwise it has nothing, or what was there before the first one. -/
structure Placed (unused : Prop) (t : Transfer) : Prop where
  channelled : Channelled t.server
  token : ∀ block channel, t.task.pc = .send block channel →
    t.server.blockAcks.lookup t.task.token = some channel ∧
      t.server.blockChannels.cell channel = .waiting
  left : ∀ block channel, t.task.pc = .wait block channel →
    ∃ before last, t.sent = before ++ [last] ∧ last.more = block.more ∧
      Left t.server t.task.token channel last.outcome
  clear : (∀ block channel, t.task.pc ≠ .send block channel ∧ t.task.pc ≠ .wait block channel) →
    (∀ block timedOut, t.task.pc ≠ .disarm block timedOut) → unused ∨ t.sent ≠ [] →
      t.server.blockAcks.lookup t.task.token = none

theorem tokenArray_toList (token : Token) : tokenArray token.toList = token := by
  ext index below
  simp [tokenArray]

private theorem arm_token {s server : Server} {token : Token} (channelled : Channelled s)
    (ran : s.step env (.client (.armBlock token)) = some server) :
    server.blockAcks.lookup token = some s.blockChannels.next ∧
      server.blockChannels.cell s.blockChannels.next = .waiting := by
  cases ran
  constructor
  · simp only [Server.clientStep, Oneshots.channel, disarm_next, Table.lookup_insert_if, if_pos]
  · change (s.disarmBlock token).blockChannels.cell s.blockChannels.next = .waiting
    rcases disarm_cell s token s.blockChannels.next with same | ⟨-, held⟩
    · exact same.trans (channelled.fresh _ (Nat.le_refl _))
    · exact absurd (channelled.used _ _ held) (Nat.lt_irrefl _)

private theorem arrive_left {s server : Server} {task : BlockWrite} {channel : Nat} {outcome : Outcome}
    (held : s.blockAcks.lookup task.token = some channel)
    (waiting : s.blockChannels.cell channel = .waiting) (out : outcome.sent)
    (arrived : arrive env s task outcome = some server) : Left server task.token channel outcome := by
  cases outcome with
  | response packet =>
    simp only [arrive, Server.step, Server.recvStep] at arrived
    split at arrived
    · rename_i sender found
      rw [tokenArray_toList, held] at found
      cases found
      cases arrived
      constructor
      · simp only [tokenArray_toList, Table.lookup_erase_if, if_pos]
      · simp only [Oneshots.send, Oneshots.resolve_cell_waiting _ waiting, if_pos]
    · rename_i missing
      rw [tokenArray_toList, held] at missing
      cases missing
  | dropped reset =>
    simp only [arrive, Server.step, Server.recvStep, tokenArray_toList, Option.some.injEq] at arrived
    subst arrived
    constructor
    · simp only [disarm_lookup, if_pos]
    · simp only [Server.disarmBlock, held, Oneshots.drop, Oneshots.resolve_cell_waiting _ waiting,
        if_pos]
  | timeout =>
    cases arrived
    exact waiting
  | sendError => cases out

private theorem arrive_channelled {s server : Server} {task : BlockWrite} {outcome : Outcome}
    (channelled : Channelled s) (arrived : arrive env s task outcome = some server) :
    Channelled server := by
  have step {position : Recv} (ran : { s with recv := position }.step env (.recv {}) = some server) :
      Channelled server :=
    channelled_step (s := { s with recv := position }) ⟨channelled.used, channelled.fresh⟩ ran
  cases outcome with
  | response packet =>
    simp only [arrive] at arrived
    exact step arrived
  | dropped reset =>
    simp only [arrive] at arrived
    exact step arrived
  | timeout | sendError =>
    cases arrived
    exact channelled

/-- A channel that has an outcome is no longer in the map. -/
private theorem left_clear {s : Server} {token : Token} {channel : Nat} {outcome : Outcome}
    (left : Left s token channel outcome) (over_ : s.blockChannels.cell channel ≠ .waiting) :
    s.blockAcks.lookup token = none := by
  cases outcome with
  | response packet => exact left.1
  | dropped reset => exact left.1
  | timeout => exact absurd left over_
  | sendError => exact left.elim

/-- The writer is at rest, and the map is the one it was. -/
private theorem placed_rests {unused : Prop} (placed : Placed unused t)
    (acks : next.server.blockAcks = t.server.blockAcks)
    (channels : next.server.blockChannels = t.server.blockChannels)
    (token : next.task.token = t.task.token) (sent : next.sent = t.sent)
    (rest : ∀ block channel, next.task.pc ≠ .send block channel ∧ next.task.pc ≠ .wait block channel)
    (cleared : unused ∨ t.sent ≠ [] → t.server.blockAcks.lookup t.task.token = none) :
    Placed unused next where
  channelled := by
    constructor
    · rw [acks, channels]
      exact placed.channelled.used
    · rw [channels]
      exact placed.channelled.fresh
  token block channel pc := absurd pc (rest block channel).1
  left block channel pc := absurd pc (rest block channel).2
  clear _ _ := by
    rw [acks, token, sent]
    exact cleared

/-- The writer has taken its channel out of the map. -/
private theorem placed_disarmed {unused : Prop} (placed : Placed unused t)
    (ran : t.server.step env (.client (.disarmBlock t.task.token)) = some next.server)
    (token : next.task.token = t.task.token)
    (rest : ∀ block channel, next.task.pc ≠ .send block channel ∧ next.task.pc ≠ .wait block channel) :
    Placed unused next where
  channelled := channelled_step placed.channelled ran
  token block channel pc := absurd pc (rest block channel).1
  left block channel pc := absurd pc (rest block channel).2
  clear _ _ _ := by
    have disarmed : t.server.disarmBlock t.task.token = next.server := Option.some.inj ran
    rw [token, ← disarmed, disarm_lookup, if_pos rfl]

theorem placed_turn {unused : Prop} (placed : Placed unused t) (turn : Turn env t next) :
    Placed unused next := by
  have answered {block : Block} {channel : Nat} (pc : t.task.pc = .wait block channel)
      (over_ : t.server.blockChannels.cell channel ≠ .waiting) :
      t.server.blockAcks.lookup t.task.token = none := by
    obtain ⟨before, last, -, -, left⟩ := placed.left block channel pc
    exact left_clear left over_
  cases turn with
  | refused pc inside =>
    exact placed_rests placed rfl rfl rfl rfl (by simp)
      (placed.clear (by simp [pc]) (by simp [pc]))
  | takes block mid pc first at_ =>
    exact placed_rests placed rfl rfl rfl rfl (by simp) (placed.clear (by simp [pc]) (by simp [pc]))
  | leaves pc outside =>
    exact placed_rests placed rfl rfl rfl rfl (by simp) (placed.clear (by simp [pc]) (by simp [pc]))
  | arms block pc server ran =>
    refine ⟨channelled_step placed.channelled ran, ?_, by simp, ?_⟩
    · intro block' channel now
      cases now
      exact arm_token placed.channelled ran
    · intro rest _ _
      exact absurd rfl (rest block t.server.blockChannels.next).1
  | sends block channel pc out server arrived =>
    obtain ⟨held, waiting⟩ := placed.token block channel pc
    refine ⟨arrive_channelled placed.channelled arrived, by simp, ?_, ?_⟩
    · intro block' channel' now
      cases now
      exact ⟨t.sent, _, rfl, rfl, arrive_left held waiting out arrived⟩
    · intro rest _ _
      exact absurd rfl (rest block channel).2
  | fails block channel pc out =>
    refine ⟨placed.channelled, by simp,
      by simp, ?_⟩
    intro _ rest _
    exact absurd rfl (rest block false)
  | unexpected block channel packet pc cell code =>
    exact placed_rests placed rfl rfl rfl rfl (by simp)
      fun _ => answered pc (by simp [cell])
  | proceeds block channel packet szx pc cell code more smaller =>
    exact placed_rests placed rfl rfl rfl rfl (by simp) fun _ => answered pc (by simp [cell])
  | final block channel packet status pc cell code other =>
    exact placed_rests placed rfl rfl rfl rfl (by simp)
      fun _ => answered pc (by simp [cell])
  | closed block channel pc cell =>
    exact placed_rests placed rfl rfl rfl rfl (by simp)
      fun _ => answered pc (by simp [cell])
  | silence block channel pc cell =>
    refine ⟨placed.channelled, by simp, by simp, ?_⟩
    intro _ rest _
    exact absurd rfl (rest block true)
  | again block pc few server ran =>
    exact placed_disarmed placed ran rfl (by simp)
  | givesUp block timedOut pc server ran =>
    exact placed_disarmed placed ran rfl (by simp)
  | reports pc pc' now server acks channels =>
    have rest : (∀ block channel, t.task.pc ≠ .send block channel ∧ t.task.pc ≠ .wait block channel) ∧
        ∀ block timedOut, t.task.pc ≠ .disarm block timedOut := by
      rcases pc with pc | ⟨endpoint, pc⟩ <;> simp [pc]
    refine placed_rests placed acks channels rfl rfl ?_ (placed.clear rest.1 rest.2)
    rcases now with rfl | ⟨-, endpoint, rfl⟩ <;> simp

/-! ## Blocks and their transmissions -/

/-- How often the block at an offset was sent. -/
def Transfer.tries (t : Transfer) (start : Nat) : Nat :=
  t.sent.countP fun entry => decide (entry.start = start)

/-- The transmissions so far of the block the task is at. -/
def triesAt : BlockPc → Option Nat
  | .next => some 0
  | .arm block | .send block _ => some block.retransmits
  | .wait block _ | .disarm block true => some (block.retransmits + 1)
  | _ => none

/-- The offset stays on the blocks: the loop is entered only with something
left to send, and every block that was sent lies at or below the offset. -/
structure Within (t : Transfer) : Prop where
  aligned : Client.blockSize t.task.szx ∣ t.task.offset
  head : t.task.pc = .next → t.task.offset < t.task.payload.length
  at_ : ∀ block, atBlock t.task.pc = some block →
    AtBlock t.task block ∧ block.retransmits < Client.maxRetransmit
  starts : ∀ entry ∈ t.sent, 16 ∣ entry.start ∧ entry.start < t.task.payload.length ∧
    entry.start ≤ t.task.offset
  few : ∀ start, t.tries start ≤ Client.maxRetransmit
  now : ∀ count, triesAt t.task.pc = some count → t.tries t.task.offset = count

private theorem sixteen_dvd (szx : UInt8) : 16 ∣ Client.blockSize szx :=
  Nat.pow_dvd_pow 2 (Nat.le_add_left 4 szx.toNat)

/-- Nothing was sent, and the offset and the block are the ones they were. -/
private theorem within_rests (within : Within t) (sent : next.sent = t.sent)
    (offset : next.task.offset = t.task.offset) (payload : next.task.payload = t.task.payload)
    (szx : next.task.szx = t.task.szx) (head : next.task.pc ≠ .next)
    (at_ : ∀ block, atBlock next.task.pc = some block →
      AtBlock next.task block ∧ block.retransmits < Client.maxRetransmit)
    (now : ∀ count, triesAt next.task.pc = some count → triesAt t.task.pc = some count) :
    Within next where
  aligned := by
    rw [szx, offset]
    exact within.aligned
  head pc := absurd pc head
  at_ := at_
  starts entry member := by
    rw [payload, offset]
    exact within.starts entry (sent ▸ member)
  few start := by
    rw [Transfer.tries, sent]
    exact within.few start
  now count held := by
    rw [Transfer.tries, sent, offset]
    exact within.now count (now count held)

private theorem within_finish {result : LwM2mResult} {pc : BlockPc} (within : Within t)
    (head : pc ≠ .next) (block : atBlock pc = none) (tries : triesAt pc = none) :
    Within (t.finish result pc) :=
  within_rests within rfl rfl rfl rfl head (by simp [block])
    (by simp [tries])

private theorem tries_transmit (block : Block) (pc : BlockPc) (server : Server) (start : Nat) :
    (t.transmit block pc server).tries start =
      t.tries start + if t.task.offset = start then 1 else 0 := by
  simp [Transfer.transmit, Transfer.goto, Transfer.tries, List.countP_append, List.countP_singleton]

private theorem within_transmit {block : Block} {channel : Nat} {pc : BlockPc} {server : Server}
    (within : Within t) (here : t.task.pc = .send block channel) (stays : atBlock pc = some block)
    (counted : ∀ count, triesAt pc = some count → count = block.retransmits + 1)
    (head : pc ≠ .next) : Within (t.transmit block pc server) := by
  obtain ⟨at_, few⟩ := within.at_ block (by rw [here]; rfl)
  have tried := within.now block.retransmits (by rw [here]; rfl)
  refine ⟨within.aligned, fun now => absurd now head, ?_, ?_, ?_, ?_⟩
  · intro block' held
    obtain rfl : block = block' := Option.some.inj (stays.symm.trans held)
    exact ⟨⟨at_.inside, at_.stop, at_.more, at_.chunk, at_.block1⟩, few⟩
  · intro entry member
    rcases List.mem_append.mp member with earlier | last
    · exact within.starts entry earlier
    · obtain rfl := List.mem_singleton.mp last
      exact ⟨Nat.dvd_trans (sixteen_dvd _) within.aligned, at_.inside, Nat.le_refl _⟩
  · intro start
    rw [tries_transmit]
    split
    · rename_i same
      rw [← same, tried]
      exact few
    · exact within.few start
  · intro count held
    change (t.transmit block pc server).tries t.task.offset = count
    rw [tries_transmit, if_pos rfl, tried, counted count held]

/-- After 2.31 the offset moves to the end of the block, which nothing was
sent from yet. -/
private theorem within_proceed {block : Block} {channel : Nat} {szx : UInt8} (within : Within t)
    (here : t.task.pc = .wait block channel) (more : block.more = true)
    (smaller : szx ≤ t.task.szx) : Within (t.proceed block szx) := by
  obtain ⟨at_, -⟩ := within.at_ block (by rw [here]; rfl)
  have unfinished : block.stop < t.task.payload.length := by
    rw [at_.more] at more
    exact of_decide_eq_true more
  have stop : block.stop = t.task.offset + Client.blockSize t.task.szx := by
    have least := at_.stop
    omega
  have size : 0 < Client.blockSize t.task.szx := Nat.two_pow_pos _
  have fresh (entry : Transmission) (member : entry ∈ t.sent) : entry.start < block.stop := by
    have behind := (within.starts entry member).2.2
    omega
  refine ⟨?_, fun _ => unfinished, by simp [atBlock], ?_, within.few, ?_⟩
  · change Client.blockSize szx ∣ block.stop
    rw [stop]
    exact Nat.dvd_trans (blockSize_dvd smaller) (Nat.dvd_add within.aligned (Nat.dvd_refl _))
  · intro entry member
    obtain ⟨multiple, inside, -⟩ := within.starts entry member
    exact ⟨multiple, inside, Nat.le_of_lt (fresh entry member)⟩
  · rintro count ⟨⟩
    refine List.countP_eq_zero.mpr fun entry member => ?_
    exact fun same => Nat.ne_of_lt (fresh entry member) (of_decide_eq_true same)

theorem within_turn (within : Within t) (turn : Turn env t next) : Within next := by
  cases turn with
  | refused pc inside =>
    exact within_finish within (by simp) rfl rfl
  | takes block mid pc first at_ =>
    refine within_rests within rfl rfl rfl rfl (by simp) ?_ ?_
    · rintro block' ⟨⟩
      refine ⟨⟨at_.inside, at_.stop, at_.more, at_.chunk, at_.block1⟩, ?_⟩
      rw [first]
      decide
    · rintro count ⟨⟩
      rw [pc, first]
      rfl
  | leaves pc outside => exact absurd (within.head pc) outside
  | arms block pc server ran =>
    obtain ⟨at_, few⟩ := within.at_ block (by rw [pc]; rfl)
    refine within_rests within rfl rfl rfl rfl (by simp) ?_ ?_
    · rintro block' ⟨⟩
      exact ⟨⟨at_.inside, at_.stop, at_.more, at_.chunk, at_.block1⟩, few⟩
    · rintro count ⟨⟩
      rw [pc]
      rfl
  | sends block channel pc out server arrived =>
    exact within_transmit within pc rfl (fun count held => (Option.some.inj held).symm) (by simp)
  | fails block channel pc out =>
    exact within_transmit within pc rfl (by simp [triesAt]) (by simp)
  | unexpected block channel packet pc cell code =>
    exact within_finish within (by simp) rfl rfl
  | proceeds block channel packet szx pc cell code more smaller =>
    exact within_proceed within pc more smaller
  | final block channel packet status pc cell code other =>
    exact within_finish within (by simp) rfl rfl
  | closed block channel pc cell =>
    exact within_finish within (by simp) rfl rfl
  | silence block channel pc cell =>
    obtain ⟨at_, few⟩ := within.at_ block (by rw [pc]; rfl)
    refine within_rests within rfl rfl rfl rfl (by simp) ?_ ?_
    · rintro block' ⟨⟩
      exact ⟨⟨at_.inside, at_.stop, at_.more, at_.chunk, at_.block1⟩, few⟩
    · rintro count ⟨⟩
      rw [pc]
      rfl
  | again block pc few server ran =>
    obtain ⟨at_, -⟩ := within.at_ block (by rw [pc]; rfl)
    refine within_rests within rfl rfl rfl rfl (by simp) ?_ ?_
    · rintro block' ⟨⟩
      exact ⟨⟨at_.inside, at_.stop, at_.more, at_.chunk, at_.block1⟩, few⟩
    · rintro count ⟨⟩
      rw [pc]
      rfl
  | givesUp block timedOut pc server ran =>
    exact within_rests within rfl rfl rfl rfl (by simp) (by simp [atBlock]) (by simp [triesAt])
  | reports pc pc' now server acks channels =>
    have ends : pc' ≠ .next ∧ atBlock pc' = none ∧ triesAt pc' = none := by
      rcases now with rfl | ⟨-, endpoint, rfl⟩ <;> simp [atBlock, triesAt]
    exact within_rests within rfl rfl rfl rfl ends.1 (by simp [ends.2.1])
      (by simp [ends.2.2])

/-- The blocks sent are no more than a payload has parts of sixteen bytes. -/
theorem blocks_le (within : Within t) :
    (t.sent.map Transmission.start).toFinset.card ≤ (t.task.payload.length + 15) / 16 := by
  rw [← Finset.card_range ((t.task.payload.length + 15) / 16)]
  refine Finset.card_le_card_of_injOn (· / 16) ?_ ?_
  · intro start member
    obtain ⟨entry, sent, rfl⟩ := List.mem_map.mp (List.mem_toFinset.mp member)
    have inside := (within.starts entry sent).2.1
    simp only [Finset.coe_range, Set.mem_Iio]
    omega
  · intro start member start' member' same
    obtain ⟨entry, sent, rfl⟩ := List.mem_map.mp (List.mem_toFinset.mp member)
    obtain ⟨entry', sent', rfl⟩ := List.mem_map.mp (List.mem_toFinset.mp member')
    have multiple := (within.starts entry sent).1
    have multiple' := (within.starts entry' sent').1
    dsimp only at same
    omega

/-! ## The end -/

/-- What the task has still to do at a place in the loops. -/
def left : BlockPc → Nat
  | .next => 19
  | .arm block => 4 * (Client.maxRetransmit - block.retransmits) + 3
  | .send block _ => 4 * (Client.maxRetransmit - block.retransmits) + 2
  | .wait block _ => 4 * (Client.maxRetransmit - block.retransmits) + 1
  | .disarm block _ => 4 * (Client.maxRetransmit - block.retransmits)
  | .markOffline => 2
  | .report _ => 1
  | .ended => 0

/-- Bytes left count more than anything a block can take. -/
def Transfer.weight (t : Transfer) : Nat :=
  (t.task.payload.length - t.task.offset) * 20 + left t.task.pc

private theorem weight_less (payload : next.task.payload = t.task.payload)
    (offset : next.task.offset = t.task.offset) (less : left next.task.pc < left t.task.pc) :
    next.weight < t.weight := by
  simp only [Transfer.weight, payload, offset]
  omega

theorem weight_turn (within : Within t) (turn : Turn env t next) : next.weight < t.weight := by
  have few (block : Block) (here : atBlock t.task.pc = some block) : block.retransmits < 3 :=
    (within.at_ block here).2
  cases turn with
  | refused pc inside => exact weight_less rfl rfl (by simp [pc, left])
  | takes block mid pc first at_ =>
    exact weight_less rfl rfl (by simp [pc, left, first, Client.maxRetransmit])
  | leaves pc outside => exact weight_less rfl rfl (by simp [pc, left])
  | arms block pc server ran => exact weight_less rfl rfl (by simp [pc, left])
  | sends block channel pc out server arrived => exact weight_less rfl rfl (by simp [pc, left])
  | fails block channel pc out => exact weight_less rfl rfl (by simp [pc, left])
  | unexpected block channel packet pc cell code => exact weight_less rfl rfl (by simp [pc, left])
  | proceeds block channel packet szx pc cell code more smaller =>
    obtain ⟨at_, -⟩ := within.at_ block (by rw [pc]; rfl)
    have inside := at_.inside
    have stop := at_.stop
    have size : 0 < Client.blockSize t.task.szx := Nat.two_pow_pos _
    simp only [Transfer.weight, Transfer.proceed, pc, left]
    omega
  | final block channel packet status pc cell code other =>
    exact weight_less rfl rfl (by simp [pc, left])
  | closed block channel pc cell => exact weight_less rfl rfl (by simp [pc, left])
  | silence block channel pc cell => exact weight_less rfl rfl (by simp [pc, left])
  | again block pc more server ran =>
    have count := few block (by rw [pc]; rfl)
    refine weight_less rfl rfl ?_
    simp only [Transfer.goto_pc, pc, left, Client.maxRetransmit]
    omega
  | givesUp block timedOut pc server ran =>
    have count := few block (by rw [pc]; rfl)
    refine weight_less rfl rfl ?_
    simp only [Transfer.finish_pc, pc, left, Client.maxRetransmit]
    omega
  | reports pc pc' now server acks channels =>
    refine weight_less rfl rfl ?_
    rcases now with rfl | ⟨pc, endpoint, rfl⟩
    · rcases pc with pc | ⟨endpoint, pc⟩ <;> simp [pc, left]
    · simp [pc, left]

/-- Only a write that has ended takes no step. -/
theorem step_isSome (env : Env) (unfinished : t.task.pc ≠ .ended) : ∃ next, t.step env = some next := by
  have arrives (s : Server) (outcome : Outcome) : ∃ server, arrive env s t.task outcome = some server := by
    cases outcome with
    | response packet =>
      simp only [arrive, Server.step, Server.recvStep]
      split <;> exact ⟨_, rfl⟩
    | _ => exact ⟨_, rfl⟩
  have moves : ∃ outcome, t.task.step env t.server { sent := (t.outcomes 0).sent, timeout := true } =
      some outcome := by
    unfold BlockWrite.step
    split
    · split
      · dsimp only
        split <;> exact ⟨_, rfl⟩
      · exact ⟨_, rfl⟩
    · exact ⟨_, rfl⟩
    · exact ⟨_, rfl⟩
    · split
      · exact ⟨_, rfl⟩
      · exact ⟨_, rfl⟩
      · exact ⟨_, if_pos rfl⟩
    · dsimp only
      split <;> exact ⟨_, rfl⟩
    · exact ⟨_, rfl⟩
    · exact ⟨_, rfl⟩
    · rename_i pc
      exact absurd pc unfinished
  obtain ⟨outcome, moved⟩ := moves
  have called : ∃ server, Gateway.call env t.server outcome.call = some server := by
    cases outcome.call <;> exact ⟨_, rfl⟩
  obtain ⟨server, called⟩ := called
  simp only [Transfer.step, moved, called, Option.bind_eq_bind, Option.bind_some]
  split
  · obtain ⟨server', arrived⟩ := arrives server (t.outcomes 0)
    rw [arrived]
    exact ⟨_, rfl⟩
  · exact ⟨_, rfl⟩

theorem run_add (m n : Nat) : t.run env (m + n) = (t.run env m).run env n := by
  induction n with
  | zero => rfl
  | succ n ih => rw [← Nat.add_assoc, Transfer.run, Transfer.run, ih]

theorem run_invariant (holds : Transfer → Prop) (kept : ∀ t next, holds t → Turn env t next → holds next)
    (initially : holds t) (n : Nat) : holds (t.run env n) := by
  induction n with
  | zero => exact initially
  | succ n ih =>
    rw [Transfer.run]
    cases ran : (t.run env n).step env with
    | none => exact ih
    | some next => exact kept _ _ ih (turn_of_step ran)

theorem run_ends (env : Env) (within : Within t) : ∃ n, (t.run env n).task.pc = .ended := by
  induction bound : t.weight using Nat.strong_induction_on generalizing t with
  | _ weight ih =>
    by_cases finished : t.task.pc = .ended
    · exact ⟨0, finished⟩
    · obtain ⟨next, ran⟩ := step_isSome env finished
      have turn := turn_of_step ran
      obtain ⟨n, ends⟩ := ih next.weight (bound ▸ weight_turn within turn) (within_turn within turn) rfl
      refine ⟨1 + n, ?_⟩
      rw [run_add, Transfer.run, Transfer.run, ran]
      exact ends

/-! ## Answers -/

/-- No result was sent yet. -/
def unanswered : BlockPc → Bool
  | .markOffline | .report _ | .ended => false
  | _ => true

/-- The first acknowledgement, if somebody waits for it and it was sent. -/
def FirstAck (asked : Option Nat) (acks : List Reply) : Prop :=
  acks = [] ∨ ∃ tx, asked = some tx ∧ acks = [(tx, .ok (.coapResponse 2 31))]

/-- What a write that began as `first` has answered. -/
structure Answers (first t : Transfer) : Prop where
  payload : t.task.payload = first.task.payload
  responseTx : t.task.responseTx = first.task.responseTx
  token : t.task.token = first.task.token
  acked : unanswered t.task.pc → FirstAck first.task.firstAckTx t.answers ∧
    (t.task.firstAckTx = none ∨ t.answers = [] ∧ t.task.firstAckTx = first.task.firstAckTx)
  result : unanswered t.task.pc = false → ∃ acks result,
    FirstAck first.task.firstAckTx acks ∧ t.answers = acks ++ [(first.task.responseTx, result)]

private theorem answers_same {first : Transfer} (answers : Answers first t)
    (payload : next.task.payload = t.task.payload) (responseTx : next.task.responseTx = t.task.responseTx)
    (token : next.task.token = t.task.token) (firstAck : next.task.firstAckTx = t.task.firstAckTx)
    (same : next.answers = t.answers) (pc : unanswered next.task.pc = unanswered t.task.pc) :
    Answers first next := by
  constructor
  · exact payload.trans answers.payload
  · exact responseTx.trans answers.responseTx
  · exact token.trans answers.token
  · rw [pc, same, firstAck]
    exact answers.acked
  · rw [pc, same]
    exact answers.result

private theorem answers_finish {first : Transfer} {result : LwM2mResult} {pc : BlockPc}
    (answers : Answers first t) (before : unanswered t.task.pc) (after : unanswered pc = false) :
    Answers first (t.finish result pc) := by
  refine ⟨answers.payload, answers.responseTx, answers.token, ?_, fun _ => ?_⟩
  · rw [Transfer.finish_pc, after]
    rintro ⟨⟩
  · refine ⟨t.answers, result, (answers.acked before).1, ?_⟩
    rw [← answers.responseTx]
    rfl

theorem answers_turn {first : Transfer} (answers : Answers first t) (within : Within t)
    (turn : Turn env t next) : Answers first next := by
  cases turn with
  | refused pc inside => exact answers_finish answers (by simp [pc, unanswered]) rfl
  | takes block mid pc first_ at_ =>
    exact answers_same answers rfl rfl rfl rfl rfl (by simp [pc, unanswered])
  | leaves pc outside => exact absurd (within.head pc) outside
  | arms block pc server ran =>
    exact answers_same answers rfl rfl rfl rfl rfl (by simp [pc, unanswered])
  | sends block channel pc out server arrived =>
    exact answers_same answers rfl rfl rfl rfl rfl (by simp [pc, unanswered])
  | fails block channel pc out =>
    exact answers_same answers rfl rfl rfl rfl rfl (by simp [pc, unanswered])
  | unexpected block channel packet pc cell code =>
    exact answers_finish answers (by simp [pc, unanswered]) rfl
  | proceeds block channel packet szx pc cell code more smaller =>
    obtain ⟨sent, sender⟩ := answers.acked (by simp [pc, unanswered])
    refine ⟨answers.payload, answers.responseTx, answers.token, fun _ => ⟨?_, Or.inl rfl⟩, ?_⟩
    · rcases sender with spent | ⟨silent, held⟩
      · simpa [Transfer.proceed, spent] using sent
      · cases asked : first.task.firstAckTx with
        | none => simp [Transfer.proceed, silent, held, asked, FirstAck]
        | some tx => simp [Transfer.proceed, silent, held, asked, FirstAck]
    · rintro ⟨⟩
  | final block channel packet status pc cell code other =>
    exact answers_finish answers (by simp [pc, unanswered]) rfl
  | closed block channel pc cell => exact answers_finish answers (by simp [pc, unanswered]) rfl
  | silence block channel pc cell =>
    exact answers_same answers rfl rfl rfl rfl rfl (by simp [pc, unanswered])
  | again block pc few server ran =>
    exact answers_same answers rfl rfl rfl rfl rfl (by simp [pc, unanswered])
  | givesUp block timedOut pc server ran =>
    have finished : Answers first (t.finish (.error .timeout) .markOffline) :=
      answers_finish answers (by simp [pc, unanswered]) rfl
    exact ⟨finished.payload, finished.responseTx, finished.token, finished.acked, finished.result⟩
  | reports pc pc' now server acks channels =>
    have before : unanswered t.task.pc = false := by
      rcases pc with pc | ⟨endpoint, pc⟩ <;> simp [pc, unanswered]
    have after : unanswered pc' = false := by
      rcases now with rfl | ⟨-, endpoint, rfl⟩ <;> rfl
    exact answers_same answers rfl rfl rfl rfl rfl (by simp [before, after])

/-! ## Every write ends with one answer -/

/-- What holds of a write from its start. -/
structure Sound (unused : Prop) (first t : Transfer) : Prop where
  placed : Placed unused t
  within : Within t
  answers : Answers first t

variable {server : Server} {addr : SocketAddr} {op : PendingOperation} {path : ResourcePath}
  {payload : Bytes} {contentFormat mid : UInt16} {outcomes : Nat → Outcome}

theorem sound_run (reached : (serverMachine env).Reaches Machine.always server)
    (long : Client.blockThreshold < payload.length) (n : Nat) :
    Sound (server.blockAcks.lookup (tokenOfId op.id) = none)
      (.spawned server addr op path payload contentFormat mid outcomes)
      ((Transfer.spawned server addr op path payload contentFormat mid outcomes).run env n) := by
  refine run_invariant (Sound _ _) (fun t next sound turn => ⟨placed_turn sound.placed turn,
    within_turn sound.within turn, answers_turn sound.answers sound.within turn⟩) ?_ n
  refine ⟨⟨channelled_reached reached, by rintro _ _ ⟨⟩, by rintro _ _ ⟨⟩, ?_⟩,
    ⟨Nat.dvd_zero _, fun _ => Nat.lt_of_le_of_lt (Nat.zero_le _) long, by rintro _ ⟨⟩,
      by rintro _ ⟨⟩, fun _ => Nat.zero_le _, ?_⟩, ⟨rfl, rfl, rfl, ?_, by rintro ⟨⟩⟩⟩
  · rintro - - (unused | ⟨sent⟩)
    · exact unused
    · exact absurd rfl sent
  · rintro count ⟨⟩
    rfl
  · exact fun _ => ⟨Or.inl rfl, Or.inr ⟨rfl, rfl⟩⟩

/-- **Every block-wise write ends with one answer**, whatever becomes of its
transmissions. -/
theorem write_answered (reached : (serverMachine env).Reaches Machine.always server)
    (long : Client.blockThreshold < payload.length) :
    let first := Transfer.spawned server addr op path payload contentFormat mid outcomes
    (∀ n, (first.run env n).task.pc = .next → (first.run env n).task.offset < payload.length) ∧
    ∃ n, (first.run env n).task.pc = .ended ∧
      (∀ start, (first.run env n).tries start ≤ Client.maxRetransmit) ∧
      ((first.run env n).sent.map Transmission.start).toFinset.card ≤ (payload.length + 15) / 16 ∧
      (∃ acks result, FirstAck op.firstAckTx acks ∧
        (first.run env n).answers = acks ++ [(op.responseTx, result)]) ∧
      (server.blockAcks.lookup (tokenOfId op.id) = none ∨ (first.run env n).sent ≠ [] →
        (first.run env n).server.blockAcks.lookup (tokenOfId op.id) = none) := by
  intro first
  have sound (n : Nat) : Sound (server.blockAcks.lookup (tokenOfId op.id) = none) first
      (first.run env n) := sound_run reached long n
  have carried (n : Nat) : (first.run env n).task.payload = payload := (sound n).answers.payload
  have token (n : Nat) : (first.run env n).task.token = tokenOfId op.id := (sound n).answers.token
  refine ⟨fun n pc => carried n ▸ (sound n).within.head pc, ?_⟩
  obtain ⟨n, ended⟩ : ∃ n, (first.run env n).task.pc = .ended := run_ends env (sound 0).within
  refine ⟨n, ended, (sound n).within.few, ?_, ?_, ?_⟩
  · rw [← carried n]
    exact blocks_le (sound n).within
  · exact (sound n).answers.result (by rw [ended]; rfl)
  · intro used
    rw [← token n]
    exact (sound n).placed.clear (by simp [ended]) (by simp [ended]) used

/-- An upload of 600 bytes. -/
def upload (outcomes : Nat → Outcome) : Transfer :=
  .spawned Peer.server Peer.addr { PendingOperation.new 1 (.write fotaPath [] 42) 0 0 with firstAckTx := some 1 }
    fotaPath (List.replicate 600 7) 42 1 outcomes

private theorem peer_reached : (serverMachine Peer.env).Reaches Machine.always Peer.server :=
  .start ⟨0, some "coaps://gateway", [], .new, 0, rfl⟩

/-- A device that is silent leaves nothing behind. -/
theorem write_answered_silence : ∃ n, ((upload fun _ => .timeout).run Peer.env n).task.pc = .ended ∧
    ((upload fun _ => .timeout).run Peer.env n).server.blockAcks.lookup (tokenOfId 1) = none := by
  obtain ⟨-, n, ended, -, -, -, clear⟩ := @write_answered Peer.env Peer.server Peer.addr
    { PendingOperation.new 1 (.write fotaPath [] 42) 0 0 with firstAckTx := some 1 } fotaPath
    (List.replicate 600 7) 42 1 (fun _ => .timeout) peer_reached (by rw [List.length_replicate]; decide)
  exact ⟨n, ended, clear (Or.inl rfl)⟩

/-! ## What a write has answered when it says Ok -/

/-- `handle_fota_write`: what the watcher reports with `send_fota_result`, for
the result of the transfer or none of it. -/
def fotaSuccess : Option LwM2mResult → Bool
  | some (.ok (.coapResponse 2 _)) => true
  | _ => false

/-- An Ok is answered, and a firmware upload reported as a success, only after
the block that announces no more was sent and answered by a 2.xx response
other than 2.31. -/
def OkAfterLast (t : Transfer) : Prop :=
  ∀ result, (t.task.responseTx, result) ∈ t.answers → result.toBool ∨ fotaSuccess (some result) →
    ∃ entry ∈ t.sent, entry.more = false ∧ entry.outcome.completes

/-- A block that announces more is about to be sent, and a 2.xx response other
than 2.31 will be taken for its answer. -/
def early (t : Transfer) : Bool :=
  match t.task.pc with
  | .send block _ => block.more && (t.outcomes 0).completes
  | _ => false

/-- How many transmissions were answered by a final success. -/
def Transfer.completed (t : Transfer) : Nat := t.sent.countP fun entry => entry.outcome.completes

/-- The write goes on as long as no transmission was answered by a final
success, and the result is Ok exactly if the last one was. -/
structure Verdicts (t : Transfer) : Prop where
  going : unanswered t.task.pc → (∀ block channel, t.task.pc ≠ .wait block channel) → t.completed = 0
  waiting : ∀ block channel, t.task.pc = .wait block channel → ∀ before last,
    t.sent = before ++ [last] → before.countP (fun entry => entry.outcome.completes) = 0
  decided : unanswered t.task.pc = false → ∃ acks result, t.answers = acks ++ [(t.task.responseTx, result)] ∧
    t.completed = result.toBool.toNat

private theorem completed_append {before : List Transmission} {last : Transmission}
    (sent : t.sent = before ++ [last])
    (none_ : before.countP (fun entry => entry.outcome.completes) = 0) :
    t.completed = last.outcome.completes.toNat := by
  rw [Transfer.completed, sent, List.countP_append, none_, List.countP_singleton, Nat.zero_add]
  cases last.outcome.completes <;> rfl

/-- A packet in the channel is the outcome of the last transmission. -/
private theorem completes_sent {s : Server} {token : Token} {channel : Nat} {outcome : Outcome}
    {packet : Packet} (left : Left s token channel outcome)
    (cell : s.blockChannels.cell channel = .sent packet) :
    outcome.completes = completes packet.code := by
  cases outcome with
  | response sent =>
    rw [left.2] at cell
    cases cell
    rfl
  | dropped reset => cases left.2.symm.trans cell
  | timeout => cases left.symm.trans cell
  | sendError => exact left.elim

private theorem completes_silent {s : Server} {token : Token} {channel : Nat} {outcome : Outcome}
    (left : Left s token channel outcome)
    (cell : ∀ packet, s.blockChannels.cell channel ≠ .sent packet) : outcome.completes = false := by
  cases outcome with
  | response sent => exact absurd left.2 (cell _)
  | _ => rfl

private theorem verdict_toBool {status : Status} (other : status ≠ .continue) :
    (verdict status).toBool = completes (.response status) := by
  cases status with
  | «continue» => exact absurd rfl other
  | _ => rfl

private theorem verdicts_rests (verdicts : Verdicts t) (sent : next.sent = t.sent)
    (before : unanswered t.task.pc) (rest : ∀ block channel, t.task.pc ≠ .wait block channel)
    (after : unanswered next.task.pc) (restAfter : ∀ block channel, next.task.pc ≠ .wait block channel) :
    Verdicts next where
  going _ _ := by
    rw [Transfer.completed, sent]
    exact verdicts.going before rest
  waiting block channel pc := absurd pc (restAfter block channel)
  decided pc := by
    rw [after] at pc
    cases pc

private theorem verdicts_finish {result : LwM2mResult} {pc : BlockPc} (after : unanswered pc = false)
    (count : t.completed = result.toBool.toNat) : Verdicts (t.finish result pc) where
  going now := by
    rw [Transfer.finish_pc, after] at now
    cases now
  waiting block channel now := by
    rw [Transfer.finish_pc] at now
    rw [now] at after
    cases after
  decided _ := ⟨t.answers, result, rfl, count⟩

theorem verdicts_turn {unused : Prop} (verdicts : Verdicts t) (placed : Placed unused t)
    (within : Within t) (turn : Turn env t next) : Verdicts next := by
  -- what the last transmission was answered by, while the task waits for it
  have last {block : Block} {channel : Nat} (pc : t.task.pc = .wait block channel) :
      ∃ outcome, Left t.server t.task.token channel outcome ∧ t.completed = outcome.completes.toNat := by
    obtain ⟨before, last, sent, -, left⟩ := placed.left block channel pc
    exact ⟨last.outcome, left, completed_append sent (verdicts.waiting block channel pc before last sent)⟩
  have answer {block : Block} {channel : Nat} {packet : Packet} (pc : t.task.pc = .wait block channel)
      (cell : t.server.blockChannels.cell channel = .sent packet) :
      t.completed = (completes packet.code).toNat := by
    obtain ⟨outcome, left, count⟩ := last pc
    rw [count, completes_sent left cell]
  have silent {block : Block} {channel : Nat} (pc : t.task.pc = .wait block channel)
      (cell : ∀ packet, t.server.blockChannels.cell channel ≠ .sent packet) : t.completed = 0 := by
    obtain ⟨outcome, left, count⟩ := last pc
    rw [count, completes_silent left cell]
    rfl
  cases turn with
  | refused pc inside =>
    exact verdicts_finish rfl (verdicts.going (by simp [pc, unanswered]) (by simp [pc]))
  | takes block mid pc first at_ =>
    exact verdicts_rests verdicts rfl (by simp [pc, unanswered]) (by simp [pc]) rfl (by simp)
  | leaves pc outside => exact absurd (within.head pc) outside
  | arms block pc server ran =>
    exact verdicts_rests verdicts rfl (by simp [pc, unanswered]) (by simp [pc]) rfl (by simp)
  | sends block channel pc out server arrived =>
    refine ⟨fun _ rest => absurd rfl (rest block channel), ?_, by rintro ⟨⟩⟩
    intro block' channel' now before last sent
    obtain ⟨rfl, -⟩ := List.append_inj' sent rfl
    exact verdicts.going (by simp [pc, unanswered]) (by simp [pc])
  | fails block channel pc out =>
    refine ⟨fun _ _ => ?_, by rintro _ _ ⟨⟩, by rintro ⟨⟩⟩
    rw [completed_append rfl (verdicts.going (by simp [pc, unanswered]) (by simp [pc])), out]
    rfl
  | unexpected block channel packet pc cell code =>
    refine verdicts_finish rfl ?_
    rw [answer pc cell]
    rcases code with ⟨code, -⟩ | code
    · rw [code]
      rfl
    · cases class_ : packet.code with
      | response status => exact absurd class_ (code status)
      | _ => rfl
  | proceeds block channel packet szx pc cell code more smaller =>
    refine ⟨fun _ _ => ?_, by rintro _ _ ⟨⟩, by rintro ⟨⟩⟩
    have count := answer pc cell
    rw [code] at count
    exact count
  | final block channel packet status pc cell code other =>
    refine verdicts_finish rfl ?_
    rw [answer pc cell, code, verdict_toBool other]
  | closed block channel pc cell => exact verdicts_finish rfl (silent pc (by simp [cell]))
  | silence block channel pc cell =>
    exact ⟨fun _ _ => silent pc (by simp [cell]), by rintro _ _ ⟨⟩, by rintro ⟨⟩⟩
  | again block pc few server ran =>
    exact verdicts_rests verdicts rfl (by simp [pc, unanswered]) (by simp [pc]) rfl (by simp)
  | givesUp block timedOut pc server ran =>
    have finished : Verdicts (t.finish (.error .timeout) .markOffline) :=
      verdicts_finish rfl (verdicts.going (by simp [pc, unanswered]) (by simp [pc]))
    exact ⟨finished.going, finished.waiting, finished.decided⟩
  | reports pc pc' now server acks channels =>
    have before : unanswered t.task.pc = false := by
      rcases pc with pc | ⟨endpoint, pc⟩ <;> simp [pc, unanswered]
    have after : unanswered pc' = false := by
      rcases now with rfl | ⟨-, endpoint, rfl⟩ <;> rfl
    refine ⟨fun now => ?_, fun block channel now => ?_, fun _ => verdicts.decided before⟩
    · rw [Transfer.goto_pc, after] at now
      cases now
    · rw [Transfer.goto_pc] at now
      rw [now] at after
      cases after

private theorem completed_le {unused : Prop} (verdicts : Verdicts t) (placed : Placed unused t) :
    t.completed ≤ 1 := by
  cases over_ : unanswered t.task.pc with
  | false =>
    obtain ⟨acks, result, -, count⟩ := verdicts.decided over_
    exact count ▸ Bool.toNat_le _
  | true =>
    by_cases waits : ∃ block channel, t.task.pc = .wait block channel
    · obtain ⟨block, channel, pc⟩ := waits
      obtain ⟨before, last, sent, -, -⟩ := placed.left block channel pc
      rw [completed_append sent (verdicts.waiting block channel pc before last sent)]
      exact Bool.toNat_le _
    · rw [verdicts.going over_ fun block channel pc => waits ⟨block, channel, pc⟩]
      exact Nat.zero_le 1

theorem sent_turn (turn : Turn env t next) : t.sent <+: next.sent := by
  cases turn with
  | sends | fails => exact List.prefix_append _ _
  | _ => exact List.prefix_rfl

private theorem sent_run (n m : Nat) : (t.run env n).sent <+: (t.run env (n + m)).sent := by
  rw [run_add]
  exact run_invariant (fun later => (t.run env n).sent <+: later.sent)
    (fun _ _ grown turn => grown.trans (sent_turn turn)) List.prefix_rfl m

/-- A turn that is not early adds no early completion. -/
private theorem late_turn (turn : Turn env t next)
    (punctual : early t = false)
    (late : ∀ entry ∈ t.sent, entry.outcome.completes → entry.more = false) :
    ∀ entry ∈ next.sent, entry.outcome.completes → entry.more = false := by
  have last {block : Block} {channel : Nat} (pc : t.task.pc = .send block channel) :
      ∀ entry ∈ t.sent ++ [⟨t.task.offset, block.more, t.outcomes 0⟩], entry.outcome.completes →
        entry.more = false := by
    intro entry member done
    rcases List.mem_append.mp member with earlier | here
    · exact late entry earlier done
    · obtain rfl := List.mem_singleton.mp here
      simp only [early, pc] at punctual
      rw [done, Bool.and_true] at punctual
      exact punctual
  cases turn with
  | sends block channel pc out server arrived => exact last pc
  | fails block channel pc out => exact last pc
  | _ => exact late

/-- What is sent early is in the log with its answer. -/
private theorem early_sent (env : Env) (already : early t = true) :
    ∃ entry ∈ (t.run env 1).sent, entry.more = true ∧ entry.outcome.completes := by
  unfold early at already
  split at already
  · rename_i block channel pc
    rw [Bool.and_eq_true] at already
    obtain ⟨next, ran⟩ := step_isSome env (t := t) (by simp [pc])
    rw [Transfer.run, Transfer.run, ran, Option.getD_some]
    refine ⟨⟨t.task.offset, block.more, t.outcomes 0⟩, ?_, already⟩
    simp only [Transfer.step, BlockWrite.step, pc, Gateway.call, Option.bind_eq_bind,
      Option.bind_some] at ran
    obtain ⟨server, -, ran⟩ := Option.bind_eq_some_iff.mp ran
    cases ran
    exact List.mem_append_right _ (List.mem_singleton_self _)
  · cases already

private theorem firstAck_other {asked : Option Nat} {acks : List Reply} {responseTx : Nat}
    {result : LwM2mResult} (firstAck : FirstAck asked acks) (apart : asked ≠ some responseTx) :
    (responseTx, result) ∉ acks := by
  rcases firstAck with rfl | ⟨tx, held, rfl⟩
  · exact List.not_mem_nil
  · intro member
    obtain ⟨rfl, -⟩ := Prod.mk.inj (List.mem_singleton.mp member)
    exact apart held

/-- The one result, and whether a transmission completed. -/
private theorem completed_of_answer {first : Transfer} {result : LwM2mResult}
    (answers : Answers first t) (verdicts : Verdicts t)
    (apart : first.task.firstAckTx ≠ some first.task.responseTx)
    (member : (t.task.responseTx, result) ∈ t.answers) : t.completed = result.toBool.toNat := by
  rw [answers.responseTx] at member
  cases over_ : unanswered t.task.pc with
  | true => exact absurd member (firstAck_other (answers.acked over_).1 apart)
  | false =>
    obtain ⟨acks, result', firstAck, sent⟩ := answers.result over_
    obtain ⟨acks', decided, sent', count⟩ := verdicts.decided over_
    obtain ⟨-, same⟩ := List.append_inj' (sent.symm.trans sent') rfl
    obtain ⟨-, rfl⟩ := Prod.mk.inj (List.singleton_inj.mp same)
    rw [sent] at member
    rcases List.mem_append.mp member with early | here
    · exact absurd early (firstAck_other firstAck apart)
    · rw [(Prod.mk.inj (List.mem_singleton.mp here)).2, count]

private theorem toBool_of_fotaSuccess {result : LwM2mResult} (success : fotaSuccess (some result)) :
    result.toBool := by
  cases result with
  | ok value => rfl
  | error err => cases success

/-- One completion is not two. -/
private theorem completes_once {entry other : Transmission} (few : t.completed ≤ 1)
    (member : entry ∈ t.sent) (member' : other ∈ t.sent) (done : entry.outcome.completes)
    (done' : other.outcome.completes) : entry = other := by
  rw [Transfer.completed, List.countP_eq_length_filter] at few
  have here : entry ∈ t.sent.filter fun e => e.outcome.completes := List.mem_filter.mpr ⟨member, done⟩
  have there : other ∈ t.sent.filter fun e => e.outcome.completes := List.mem_filter.mpr ⟨member', done'⟩
  cases kept : t.sent.filter fun e => e.outcome.completes with
  | nil => cases kept ▸ here
  | cons first rest =>
    rw [kept, List.length_cons] at few
    obtain rfl : rest = [] := List.length_eq_zero_iff.mp (Nat.le_zero.mp (Nat.le_of_succ_le_succ few))
    rw [kept] at here there
    exact (List.mem_singleton.mp here).trans (List.mem_singleton.mp there).symm

/-- **Ok is answered after the last block exactly if no earlier block is given
a final success.** -/
theorem okAfterLast_iff (reached : (serverMachine env).Reaches Machine.always server)
    (long : Client.blockThreshold < payload.length) (apart : op.firstAckTx ≠ some op.responseTx) :
    let first := Transfer.spawned server addr op path payload contentFormat mid outcomes
    (∀ n, OkAfterLast (first.run env n)) ↔ ∀ n, early (first.run env n) = false := by
  intro first
  have sound (n : Nat) : Sound (server.blockAcks.lookup (tokenOfId op.id) = none) first
      (first.run env n) := sound_run reached long n
  have verdicts (n : Nat) : Verdicts (first.run env n) := by
    induction n with
    | zero => exact ⟨fun _ _ => rfl, by rintro _ _ ⟨⟩, by rintro ⟨⟩⟩
    | succ n ih =>
      rw [Transfer.run]
      cases ran : (first.run env n).step env with
      | none => exact ih
      | some next =>
        exact verdicts_turn ih (sound n).placed (sound n).within (turn_of_step ran)
  constructor
  · intro after n
    by_contra already
    obtain ⟨entry, sent, more, done⟩ := early_sent env (Bool.eq_true_of_not_eq_false already)
    have ends : ∃ m, (first.run env (n + 1 + m)).task.pc = .ended := by
      obtain ⟨m, ended⟩ := run_ends env (sound (n + 1)).within
      exact ⟨m, run_add (n + 1) m ▸ ended⟩
    obtain ⟨m, ended⟩ := ends
    have there := (sent_run (n + 1) m).subset sent
    obtain ⟨acks, result, -, answered⟩ := (sound (n + 1 + m)).answers.result (by rw [ended]; rfl)
    have member : ((first.run env (n + 1 + m)).task.responseTx, result) ∈
        (first.run env (n + 1 + m)).answers := by
      rw [answered, (sound (n + 1 + m)).answers.responseTx]
      exact List.mem_append_right _ (List.mem_singleton_self _)
    have few := completed_le (verdicts (n + 1 + m)) (sound (n + 1 + m)).placed
    have ok : result.toBool := by
      have count := completed_of_answer (sound (n + 1 + m)).answers (verdicts (n + 1 + m)) apart member
      have some_ : 0 < (first.run env (n + 1 + m)).completed :=
        List.countP_pos_iff.mpr ⟨entry, there, done⟩
      cases good : result.toBool with
      | true => rfl
      | false =>
        rw [count, good] at some_
        cases some_
    obtain ⟨last, member', final, done'⟩ := after (n + 1 + m) result member (Or.inl ok)
    rw [completes_once few there member' done done', final] at more
    cases more
  · intro punctual n
    have late (n : Nat) : ∀ entry ∈ (first.run env n).sent, entry.outcome.completes →
        entry.more = false := by
      induction n with
      | zero => rintro _ ⟨⟩
      | succ n ih =>
        rw [Transfer.run]
        cases ran : (first.run env n).step env with
        | none => exact ih
        | some next => exact late_turn (turn_of_step ran) (punctual n) ih
    intro result member good
    have ok : result.toBool := good.elim id toBool_of_fotaSuccess
    have count := completed_of_answer (sound n).answers (verdicts n) apart member
    rw [ok] at count
    obtain ⟨entry, sent, done⟩ := List.countP_pos_iff.mp (Nat.lt_of_lt_of_eq Nat.zero_lt_one count.symm)
    exact ⟨entry, sent, late n entry sent done, done⟩

private def answeredBy (code : Status) : Outcome :=
  .response { type := .acknowledgement, code := .response code, messageId := 1, token := [] }

/-- The device answers every block by 2.04. -/
def changedAtOnce : Transfer := upload fun _ => answeredBy .changed

/-- It answers the first of two blocks by 2.31 and the second by 2.04. -/
def changedAtLast : Transfer := upload fun turn => answeredBy (if turn = 0 then .continue else .changed)

/-- The first of two blocks is answered by 2.04, and the upload has succeeded. -/
theorem changedAtOnce_truncated : ¬ OkAfterLast (changedAtOnce.run Peer.env 4) := by
  intro after
  have answered : (changedAtOnce.run Peer.env 4).answers = [(0, .ok (.coapResponse 2 4))] := by
    decide +kernel
  have responseTx : (changedAtOnce.run Peer.env 4).task.responseTx = 0 := by decide +kernel
  have sent : (changedAtOnce.run Peer.env 4).sent.map Transmission.more = [true] := by decide +kernel
  obtain ⟨entry, member, last, -⟩ := after (.ok (.coapResponse 2 4))
    (by rw [responseTx, answered]; exact List.mem_singleton_self _) (Or.inr rfl)
  have more : entry.more ∈ [true] := sent ▸ List.mem_map_of_mem member
  rw [last] at more
  exact absurd more (by decide)

/-- A write that has come to its end stays as it is. -/
theorem Transfer.run_ended {env : Env} {t : Transfer} {n : Nat} (ended : (t.run env n).step env = none)
    (more : Nat) : t.run env (n + more) = t.run env n := by
  induction more with
  | zero => rfl
  | succ more ih => rw [← Nat.add_assoc, Transfer.run, ih, ended, Option.getD_none]

theorem okAfterLast_changed :
    (early (changedAtOnce.run Peer.env 2) = true ∧ ¬ ∀ n, OkAfterLast (changedAtOnce.run Peer.env n)) ∧
      (∃ answer, (0, answer) ∈ (changedAtLast.run Peer.env 8).answers ∧ answer.toBool = true) ∧
      ∀ n, OkAfterLast (changedAtLast.run Peer.env n) := by
  have long : Client.blockThreshold < (List.replicate 600 (7 : UInt8)).length := by
    rw [List.length_replicate]
    decide
  have already : early (changedAtOnce.run Peer.env 2) = true := by decide +kernel
  refine ⟨⟨already, fun after => ?_⟩, ?_, ?_⟩
  · have punctual : early (changedAtOnce.run Peer.env 2) = false :=
      (okAfterLast_iff peer_reached long (by decide)).mp after 2
    rw [already] at punctual
    cases punctual
  · have answers : (changedAtLast.run Peer.env 8).answers =
        [(1, .ok (.coapResponse 2 31)), (0, .ok (.coapResponse 2 4))] := by decide +kernel
    refine ⟨.ok (.coapResponse 2 4), ?_, rfl⟩
    rw [answers]
    exact List.mem_cons_of_mem _ (List.mem_singleton_self _)
  · apply (okAfterLast_iff peer_reached long (by decide)).mpr
    intro n
    have ended : (changedAtLast.run Peer.env 8).step Peer.env = none :=
      Option.isNone_iff_eq_none.mp (by decide +kernel)
    have before : ∀ n < 9, early (changedAtLast.run Peer.env n) = false := by decide +kernel
    rcases Nat.lt_or_ge n 9 with early_ | late
    · exact before n early_
    · obtain ⟨more, rfl⟩ := Nat.exists_eq_add_of_le (Nat.le_of_succ_le late)
      exact (congrArg early (Transfer.run_ended ended more)).trans (before 8 (by decide))

end Lwm2mServer.BlockOutcomes
