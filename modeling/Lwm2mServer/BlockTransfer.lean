import Lwm2mServer.BlockAcks
import Lwm2mServer.Gateway
import Lwm2mServer.RecvSteps

/-! One block-wise write and the device it goes to, over a network that loses,
delays, duplicates and reorders datagrams. The device answers each block it
receives, every time, with an acknowledgement that has the block's message id
and the token of the transfer. All blocks have the same token, and the waiter
is found by the token alone, so an acknowledgement that comes late is taken
for that of the block being sent. -/
namespace Lwm2mServer.BlockTransfer
open Library BlockAcks RecvSteps

/-- A block on the wire: the part of the payload it carries and the request. -/
structure Sent where
  start : Nat
  stop : Nat
  packet : Packet

/-- The server, the task, and what they and the device have sent so far. What
was sent may arrive at any time, any number of times, or never. -/
structure Link where
  server : Server
  task : BlockWrite
  sent : List Sent := []
  /-- The blocks the device received. -/
  received : List Sent := []
  /-- The answers of the device, each with the block it answers. -/
  acks : List (Packet × Sent) := []
  /-- The block that the datagram answers which the receive loop took last. -/
  handling : Option Sent := none

inductive LinkAction where
  /-- The rest of the server, with its other clients and peers. -/
  | server (action : Action)
  | task (choice : Choice)
  /-- A block reaches the device, which answers it. -/
  | deliver (index : Nat) (status : Status) (block1 : Option Bytes)
  /-- An answer of the device reaches the server. -/
  | arrive (index : Nat) (addr : SocketAddr)

/-- The answer to a block. -/
def ackOf (block : Packet) (status : Status) (block1 : Option Bytes) : Packet where
  type := .acknowledgement
  code := .response status
  messageId := block.messageId
  token := block.token
  block1 := block1

/-- The acknowledgement the receive loop has taken and not yet looked up among
the block-wise writes. -/
def inHand : Recv → Option Packet
  | .touch packet _ | .reportOnline _ packet _ =>
    if packet.type = .acknowledgement then some packet else none
  | .ackWrite packet _ | .ackPending packet _ | .ackBlock packet _ => some packet
  | _ => none

namespace Link

/-- Nobody else uses the token of the transfer: acknowledgements with it come
from the device only, and no other task of `client.rs` waits under it. -/
def foreign (l : Link) : Action → Bool
  | .receive (some packet) _ =>
    decide (packet.type = .acknowledgement) && decide (tokenArray packet.token = l.task.token)
  | .client (.armBlock token) | .client (.disarmBlock token) => decide (token = l.task.token)
  | _ => false

/-- What the task puts on the wire in its next step. -/
def transmits (task : BlockWrite) (choice : Choice) : Option Sent :=
  match task.pc with
  | .send block _ => if choice.sent then some ⟨task.offset, block.stop, block.packet⟩ else none
  | _ => none

def step (env : Env) (l : Link) : LinkAction → Option Link
  | .server action =>
    if l.foreign action then none
    else (l.server.step env action).map fun server =>
      { l with
        server
        handling := match action with
          | .receive (some _) _ => none
          | _ => l.handling }
  | .task choice => do
    let outcome ← l.task.step env l.server choice
    let server ← Gateway.call env l.server outcome.call
    return { l with
      server
      task := outcome.task
      sent := (transmits l.task choice).toList ++ l.sent }
  | .deliver index status block1 => do
    let block ← l.sent[index]?
    return { l with
      received := block :: l.received
      acks := (ackOf block.packet status block1, block) :: l.acks }
  | .arrive index addr => do
    let (packet, block) ← l.acks[index]?
    let server ← l.server.step env (.receive (some packet) addr)
    return { l with server, handling := some block }

/-- The task as `dispatch_op` spawns it. -/
def spawned (addr : SocketAddr) (op : PendingOperation) (path : ResourcePath) (payload : Bytes)
    (contentFormat mid : UInt16) : BlockWrite where
  addr := addr
  opId := op.id
  path := path
  payload := payload
  contentFormat := contentFormat
  responseTx := op.responseTx
  firstAckTx := op.firstAckTx
  szx := Client.blockSzx
  mid := mid
  offset := 0
  pc := .next

/-- A transfer starts at any time, under a token no acknowledgement of which is
being handled. -/
def machine (env : Env) : Machine Link LinkAction where
  start l := ∃ server addr op path payload contentFormat mid,
    (serverMachine env).Reaches Machine.always server ∧
      (∀ packet ∈ inHand server.recv, tokenArray packet.token ≠ tokenOfId op.id) ∧
      l = { server, task := spawned addr op path payload contentFormat mid }
  step := step env

end Link

/-- The device has a byte of the payload. -/
def Has (l : Link) (index : Nat) : Prop :=
  ∃ block ∈ l.received, block.start ≤ index ∧ index < block.stop ∧
    block.packet.payload[index - block.start]? = l.task.payload[index]?

/-- Before a block is sent for the first time, the device has all bytes below
it. -/
def NoGap (l : Link) : Prop :=
  ∀ block channel, l.task.pc = .send block channel →
    (∀ earlier ∈ l.sent, earlier.start ≠ l.task.offset) → ∀ index < l.task.offset, Has l index

/-- The receive loop is about to hand an acknowledgement to a waiter, and the
transfer has left the block it answers behind. -/
def lateAck (l : Link) : LinkAction → Bool
  | .server (.recv _) => match l.server.recv with
    | .ackBlock packet _ => (l.server.blockAcks.lookup (tokenArray packet.token)).isSome &&
      l.handling.any fun block => decide (block.start < l.task.offset)
    | _ => false
  | _ => false

/-- No acknowledgement that is late finds a waiter. -/
def InTime (l : Link) (action : LinkAction) : Prop := lateAck l action = false

instance (l : Link) (action : LinkAction) : Decidable (InTime l action) :=
  inferInstanceAs (Decidable (lateAck l action = false))

variable {env : Env} {s next : Server} {l l' : Link} {action : Action} {choice : Choice}

/-! ## The receive loop -/

private theorem inHand_handlePacket {packet p : Packet} {addr : SocketAddr}
    (held : inHand (handlePacket env p addr) = some packet) :
    p.type = .acknowledgement ∧ p = packet := by
  cases type : p.type with
  | acknowledgement =>
    simp only [handlePacket, type] at held
    exact ⟨rfl, Option.some.inj held⟩
  | reset =>
    simp only [handlePacket, type] at held
    cases held
  | _ =>
    have post : inHand (handlePost env p addr) = none := by
      unfold handlePost
      dsimp only
      split
      · split <;> rfl
      · split <;> rfl
      all_goals rfl
    simp only [handlePacket, type] at held
    split at held
    · rw [post] at held
      cases held
    · cases held
    · cases held

/-- The acknowledgement at hand was taken from the wire. -/
theorem inHand_recv {packet : Packet} (ran : s.recvStep env choice = some next)
    (held : inHand next.recv = some packet) : inHand s.recv = some packet := by
  have goes := goes_recv ran
  generalize next.recv = recv at goes held
  cases goes with
  | online position | pending position | block position => rwa [position]
  | handle position =>
    obtain ⟨type, rfl⟩ := inHand_handlePacket held
    rcases position with position | ⟨endpoint, position⟩ <;>
      (rw [position]
       exact if_pos type)
  | @resume response addr rest position =>
    cases rest with
    | report payload =>
      simp only [AfterResponse.resume] at held
      split at held <;> cases held
    | _ => cases held
  | registered | reporter | built | complete | inFlight => cases held
  | inside carries =>
    cases recv with
    | touch | reportOnline | ackWrite | ackPending | ackBlock => cases carries
    | _ => cases held

/-! ## The payload -/

/-- The block a task is at. -/
def atBlock : BlockPc → Option Block
  | .arm block | .send block _ | .wait block _ | .disarm block _ => some block
  | _ => none

/-- The part of the payload from one offset to another. -/
def part (payload : Bytes) (start stop : Nat) : Bytes := (payload.drop start).take (stop - start)

/-- How far the transfer is: what was sent lies below its offset or is the
block at it, and the device has all that lies below. -/
structure Progress (l : Link) : Prop where
  block : ∀ block, atBlock l.task.pc = some block →
    l.task.offset < block.stop ∧ block.packet.payload = part l.task.payload l.task.offset block.stop
  parts : ∀ b ∈ l.sent, b.packet.payload = part l.task.payload b.start b.stop
  upTo : ∀ b ∈ l.sent, b.start ≤ l.task.offset ∧ (l.task.pc = .next → b.start < l.task.offset)
  atOffset : ∀ b ∈ l.sent, ∀ block, atBlock l.task.pc = some block → b.start = l.task.offset →
    b.stop = block.stop
  received : ∀ b ∈ l.received, b ∈ l.sent
  acks : ∀ answer ∈ l.acks, answer.2 ∈ l.received
  handling : ∀ b ∈ l.handling, b ∈ l.received
  covered : ∀ index < l.task.offset, ∃ b ∈ l.received, b.start ≤ index ∧ index < b.stop

/-- A block the device has received, no earlier than the one the task is at, is
that one. -/
theorem Progress.current (progress : Progress l) {b : Sent} (member : b ∈ l.received)
    (late : l.task.offset ≤ b.start) {block : Block} (here : atBlock l.task.pc = some block) :
    b.start = l.task.offset ∧ b.stop = block.stop := by
  have sent := progress.received b member
  have start : b.start = l.task.offset := Nat.le_antisymm (progress.upTo b sent).1 late
  exact ⟨start, progress.atOffset b sent block here start⟩

/-- The task stays at its block, or ends there. -/
private theorem progress_stay (progress : Progress l) (offset : l'.task.offset = l.task.offset)
    (payload : l'.task.payload = l.task.payload) (leaves : l'.task.pc ≠ .next)
    (same : ∀ after, atBlock l'.task.pc = some after → ∃ block, atBlock l.task.pc = some block ∧
      after.stop = block.stop ∧ after.packet = block.packet)
    (sent : ∀ b ∈ l'.sent, b ∈ l.sent ∨ ∃ block, atBlock l.task.pc = some block ∧
      b = ⟨l.task.offset, block.stop, block.packet⟩) (kept : ∀ b ∈ l.sent, b ∈ l'.sent)
    (received : l'.received = l.received) (acks : l'.acks = l.acks)
    (handling : l'.handling = l.handling) : Progress l' where
  block after here := by
    obtain ⟨block, before, stop, packet⟩ := same after here
    rw [stop, packet, offset, payload]
    exact progress.block block before
  parts b member := by
    rw [payload]
    rcases sent b member with old | ⟨block, here, rfl⟩
    · exact progress.parts b old
    · exact (progress.block block here).2
  upTo b member := by
    refine ⟨?_, fun next => absurd next leaves⟩
    rw [offset]
    rcases sent b member with old | ⟨block, -, rfl⟩
    · exact (progress.upTo b old).1
    · exact Nat.le_refl _
  atOffset b member after here start := by
    obtain ⟨block, before, stop, -⟩ := same after here
    rw [offset] at start
    rw [stop]
    rcases sent b member with old | ⟨block', here', rfl⟩
    · exact progress.atOffset b old block before start
    · rw [before] at here'
      cases here'
      rfl
  received b member := kept b (progress.received b (received ▸ member))
  acks answer member := received ▸ progress.acks answer (acks ▸ member)
  handling b member := received ▸ progress.handling b (handling ▸ member)
  covered index below := by
    rw [received]
    exact progress.covered index (offset ▸ below)

/-- The task takes its next block. -/
private theorem progress_next (progress : Progress l) (pc : l.task.pc = .next) {block : Block}
    (beyond : l.task.offset < block.stop)
    (content : block.packet.payload = part l.task.payload l.task.offset block.stop)
    {task : BlockWrite} (offset : task.offset = l.task.offset)
    (payload : task.payload = l.task.payload) (arms : task.pc = .arm block) :
    Progress { l with task } where
  block after here := by
    rw [arms] at here
    cases here
    rw [offset, payload]
    exact ⟨beyond, content⟩
  parts b member := payload ▸ progress.parts b member
  upTo b member := by
    refine ⟨offset ▸ (progress.upTo b member).1, fun next => ?_⟩
    rw [arms] at next
    cases next
  atOffset b member after here start := by
    have before := (progress.upTo b member).2 pc
    have at_ : b.start = l.task.offset := start.trans offset
    omega
  received := progress.received
  acks := progress.acks
  handling := progress.handling
  covered index below := progress.covered index (offset ▸ below)

/-- The block the task is at was answered, and the device has it. -/
private theorem progress_advance (progress : Progress l) {block : Block}
    (here : atBlock l.task.pc = some block)
    (has : ∃ b ∈ l.received, b.start = l.task.offset ∧ b.stop = block.stop)
    {task : BlockWrite} (offset : task.offset = block.stop)
    (payload : task.payload = l.task.payload) (pc : task.pc = .next) :
    Progress { l with task } where
  block after later := by
    rw [pc] at later
    cases later
  parts b member := payload ▸ progress.parts b member
  upTo b member := by
    have before := (progress.upTo b member).1
    have beyond := (progress.block block here).1
    rw [offset]
    exact ⟨by omega, fun _ => by omega⟩
  atOffset b member after later := by
    rw [pc] at later
    cases later
  received := progress.received
  acks := progress.acks
  handling := progress.handling
  covered index below := by
    rw [offset] at below
    by_cases old : index < l.task.offset
    · exact progress.covered index old
    · obtain ⟨b, member, start, stop⟩ := has
      exact ⟨b, member, by omega, by omega⟩

/-! ## The waiter -/

/-- The block a task waits for and the channel it waits on. -/
def waitsOn : BlockPc → Option (Block × Nat)
  | .send block channel | .wait block channel => some (block, channel)
  | _ => none

/-- The channel is the task's own, and what was sent on it answers the block:
the device has that. -/
structure Waiting (s : Server) (token : Token) (has : Prop) (channel : Nat) : Prop where
  used : channel < s.blockChannels.next
  own : ∀ probe, s.blockAcks.lookup probe = some channel → probe = token
  answered : ∀ packet, s.blockChannels.cell channel = .sent packet → has

/-- The device has the block of the task. -/
def Arrived (l : Link) (block : Block) : Prop :=
  ∃ b ∈ l.received, b.start = l.task.offset ∧ b.stop = block.stop

private theorem waiting_move {token : Token} {has : Prop} {channel : Nat}
    (waiting : Waiting s token has channel) (moved : BlockMove s action next)
    (current : ∀ choice packet addr, action = .recv choice → s.recv = .ackBlock packet addr →
      tokenArray packet.token = token → (s.blockAcks.lookup token).isSome → has) :
    Waiting next token has channel := by
  cases moved with
  | same acks channels =>
    constructor
    · rw [channels]
      exact waiting.used
    · rw [acks]
      exact waiting.own
    · rw [channels]
      exact waiting.answered
  | @answered packet addr sender _ choice position held acks channels =>
    constructor
    · rw [channels, Oneshots.send, Oneshots.resolve_next]
      exact waiting.used
    · intro probe found
      rw [acks, Table.lookup_erase_if] at found
      split at found
      · cases found
      · exact waiting.own probe found
    · intro answer found
      rw [channels, Oneshots.send] at found
      rcases s.blockChannels.resolve_cell_cases sender (.sent packet) channel with same | ⟨rfl, -, -⟩
      · exact waiting.answered answer (same ▸ found)
      · have mine := waiting.own _ held
        exact current _ packet addr rfl position mine (by rw [← mine, held]; rfl)
  | disarmed other acks channels =>
    constructor
    · rw [channels, disarm_next]
      exact waiting.used
    · intro probe found
      rw [acks, disarm_lookup] at found
      split at found
      · cases found
      · exact waiting.own probe found
    · intro answer found
      rw [channels] at found
      rcases disarm_cell s other channel with same | ⟨closed, -⟩
      · exact waiting.answered answer (same ▸ found)
      · rw [closed] at found
        cases found
  | armed other acks channels =>
    constructor
    · rw [channels, Oneshots.channel, disarm_next]
      exact Nat.lt_succ_of_lt waiting.used
    · intro probe found
      rw [acks, Table.lookup_insert_if] at found
      split at found
      · cases found
        exact absurd waiting.used (Nat.lt_irrefl _)
      · exact waiting.own probe found
    · intro answer found
      rw [channels] at found
      change (s.disarmBlock other).blockChannels.cell channel = .sent answer at found
      rcases disarm_cell s other channel with same | ⟨closed, -⟩
      · exact waiting.answered answer (same ▸ found)
      · rw [closed] at found
        cases found

/-- The channel a task has just put into the map. -/
private theorem waiting_armed (channelled : Channelled s) {token : Token} (has : Prop)
    (ran : s.step env (.client (.armBlock token)) = some next) :
    Waiting next token has s.blockChannels.next := by
  cases ran
  constructor
  · simp only [Server.clientStep, Oneshots.channel, disarm_next]
    exact Nat.lt_succ_self _
  · intro probe found
    simp only [Server.clientStep, Table.lookup_insert_if] at found
    split at found
    · assumption
    · exact absurd (channelled.used probe _ found) (Nat.lt_irrefl _)
  · intro packet found
    change (s.disarmBlock token).blockChannels.cell s.blockChannels.next = .sent packet at found
    have fresh := channelled.fresh s.blockChannels.next (Nat.le_refl _)
    rcases disarm_cell s token s.blockChannels.next with same | ⟨-, held⟩
    · rw [same.trans fresh] at found
      cases found
    · exact absurd (channelled.used _ _ held) (Nat.lt_irrefl _)

/-! ## Runs -/

structure Sound (l : Link) : Prop extends Progress l where
  channelled : Channelled l.server
  /-- An acknowledgement at hand that has the token came from the device. -/
  taken : ∀ packet, inHand l.server.recv = some packet → tokenArray packet.token = l.task.token →
    l.handling.isSome
  waiting : ∀ block channel, waitsOn l.task.pc = some (block, channel) →
    Waiting l.server l.task.token (Arrived l block) channel

private theorem atBlock_of_waitsOn {pc : BlockPc} {block : Block} {channel : Nat}
    (waits : waitsOn pc = some (block, channel)) : atBlock pc = some block := by
  cases pc <;> cases waits <;> rfl

/-- An acknowledgement that comes in time for the task's waiter answers its
block. -/
private theorem arrived_of_inTime (sound : Sound l) (allowed : InTime l (.server (.recv choice)))
    {packet : Packet} {addr : SocketAddr} (position : l.server.recv = .ackBlock packet addr)
    (mine : tokenArray packet.token = l.task.token)
    (waiter : (l.server.blockAcks.lookup l.task.token).isSome) {block : Block} {channel : Nat}
    (waits : waitsOn l.task.pc = some (block, channel)) : Arrived l block := by
  have at_ : inHand l.server.recv = some packet := by rw [position]; rfl
  obtain ⟨b, held⟩ := Option.isSome_iff_exists.mp (sound.taken packet at_ mine)
  have member := sound.handling b held
  have reached : l.task.offset ≤ b.start := by
    simp only [InTime, lateAck, position] at allowed
    rw [mine, waiter, held] at allowed
    simpa using allowed
  exact ⟨b, member, sound.toProgress.current member reached (atBlock_of_waitsOn waits)⟩

private theorem taken_server {handling : Option Sent} (sound : Sound l)
    (ran : l.server.step env action = some next)
    (receives : ∀ packet addr, action = .receive (some packet) addr →
      packet.type = .acknowledgement → tokenArray packet.token = l.task.token → handling.isSome)
    (keeps : (∀ packet addr, action ≠ .receive (some packet) addr) → handling = l.handling)
    {packet : Packet} (held : inHand next.recv = some packet)
    (mine : tokenArray packet.token = l.task.token) : handling.isSome := by
  have still (same : inHand l.server.recv = some packet)
      (quiet : ∀ packet addr, action ≠ .receive (some packet) addr) : handling.isSome := by
    rw [keeps quiet]
    exact sound.taken packet same mine
  cases action with
  | recv choice => exact still (inHand_recv ran held) (by simp)
  | phase i choice =>
    obtain ⟨task, -, ran⟩ := Option.bind_eq_some_iff.mp ran
    obtain ⟨outcome, -, ran⟩ := Option.bind_eq_some_iff.mp ran
    cases ran
    exact still held (by simp)
  | receive datagram addr =>
    simp only [Server.step] at ran
    split at ran
    · rename_i p _
      cases ran
      simp only [inHand] at held
      split at held <;> cases held
      exact receives packet addr rfl ‹_› mine
    · cases ran
      exact still held (by simp)
    · cases ran
  | _ =>
    rcases (elsewhere_step ran (by simp) (by simp)).recv with same | ⟨p, from_, other, -, -⟩
    · exact still (same ▸ held) (by simp)
    · cases other

/-- A step of the server, with what becomes of the block being handled. -/
private theorem sound_server {handling : Option Sent} (sound : Sound l)
    (ran : l.server.step env action = some next)
    (allowed : InTime l (.server action))
    (receives : ∀ packet addr, action = .receive (some packet) addr →
      packet.type = .acknowledgement → tokenArray packet.token = l.task.token → handling.isSome)
    (keeps : (∀ packet addr, action ≠ .receive (some packet) addr) → handling = l.handling)
    (known : ∀ b ∈ handling, b ∈ l.received) : Sound { l with server := next, handling } where
  toProgress :=
    { sound.toProgress with
      handling := known }
  channelled := channelled_step sound.channelled ran
  taken _ held mine := taken_server sound ran receives keeps held mine
  waiting block channel waits := by
    refine waiting_move (sound.waiting block channel waits) (block_move ran) ?_
    rintro choice packet addr rfl position mine waiter
    exact arrived_of_inTime sound allowed position mine waiter waits

/-- A call of the task leaves the receive loop alone. -/
private theorem sound_called {call : Option ClientCall} {task : BlockWrite} {sent : List Sent}
    (sound : Sound l)
    (ran : Gateway.call env l.server call = some next)
    (id : task.opId = l.task.opId) (progress : Progress { l with server := next, task, sent })
    (waiting : ∀ block channel, waitsOn task.pc = some (block, channel) →
      Waiting next l.task.token (Arrived { l with server := next, task, sent } block) channel) :
    Sound { l with server := next, task, sent } := by
  have token : task.token = l.task.token := congrArg tokenOfId id
  cases call with
  | none =>
    cases ran
    exact ⟨progress, sound.channelled, fun packet held mine =>
      sound.taken packet held (mine.trans token), by rw [token]; exact waiting⟩
  | some call =>
    change l.server.step env (.client call) = some next at ran
    refine ⟨progress, channelled_step sound.channelled ran, fun packet held mine => ?_,
      by rw [token]; exact waiting⟩
    exact taken_server sound ran (by simp) (fun _ => rfl) held (mine.trans token)

private theorem block_beyond {payload : Bytes} {offset : Nat} (szx : UInt8)
    (within : offset < payload.length) :
    offset < min (offset + Client.blockSize szx) payload.length := by
  have size : 0 < Client.blockSize szx := Nat.two_pow_pos _
  omega

/-- After an answer the task is behind its block, or at its end. -/
private theorem received_outcome {task : BlockWrite} {block : Block} {packet : Packet}
    {outcome : ClientOutcome BlockWrite} (taken : task.received block packet = outcome) :
    outcome.call = none ∧ outcome.task.opId = task.opId ∧ outcome.task.payload = task.payload ∧
      ((outcome.task.offset = block.stop ∧ outcome.task.pc = .next) ∨
        (outcome.task.offset = task.offset ∧ outcome.task.pc = .ended)) := by
  unfold BlockWrite.received at taken
  split at taken
  · split at taken
    · subst taken
      exact ⟨rfl, rfl, rfl, Or.inr ⟨rfl, rfl⟩⟩
    · subst taken
      exact ⟨rfl, rfl, rfl, Or.inl ⟨rfl, rfl⟩⟩
  · subst taken
    exact ⟨rfl, rfl, rfl, Or.inr ⟨rfl, rfl⟩⟩
  · subst taken
    exact ⟨rfl, rfl, rfl, Or.inr ⟨rfl, rfl⟩⟩

private theorem sound_task (sound : Sound l) (ran : l.step env (.task choice) = some l') :
    Sound l' := by
  obtain ⟨outcome, moved, ran⟩ := Option.bind_eq_some_iff.mp ran
  obtain ⟨server, called, ran⟩ := Option.bind_eq_some_iff.mp ran
  cases ran
  have progress := sound.toProgress
  -- a position without a waiter, at the same block or at the end
  have stays {task : BlockWrite} (offset : task.offset = l.task.offset)
      (payload : task.payload = l.task.payload) (leaves : task.pc ≠ .next)
      (silent : Link.transmits l.task choice = none)
      (same : ∀ after, atBlock task.pc = some after → ∃ block, atBlock l.task.pc = some block ∧
        after.stop = block.stop ∧ after.packet = block.packet) :
      Progress { l with server, task, sent := (Link.transmits l.task choice).toList ++ l.sent } := by
    rw [silent]
    exact progress_stay progress offset payload leaves same (fun b member => Or.inl member)
      (fun b member => member) rfl rfl rfl
  cases pc : l.task.pc with
  | next =>
    have silent : Link.transmits l.task choice = none := by simp [Link.transmits, pc]
    simp only [BlockWrite.step, pc] at moved
    split at moved
    · rename_i within
      split at moved
      · cases moved
        refine sound_called sound called rfl (stays rfl rfl (by simp [BlockWrite.answered]) silent ?_) ?_
        · simp [BlockWrite.answered, atBlock]
        · simp [BlockWrite.answered, waitsOn]
      · cases moved
        refine sound_called sound called rfl ?_ (by simp [waitsOn])
        rw [silent]
        cases called
        exact progress_next progress pc (block_beyond l.task.szx within) rfl rfl rfl rfl
    · cases moved
      exact sound_called sound called rfl (stays rfl rfl (by simp) silent (by simp [atBlock]))
        (by simp [waitsOn])
  | arm block =>
    have silent : Link.transmits l.task choice = none := by simp [Link.transmits, pc]
    simp only [BlockWrite.step, pc] at moved
    cases moved
    refine sound_called sound called rfl (stays rfl rfl (by simp) silent ?_) ?_
    · rintro after ⟨rfl⟩
      exact ⟨block, by rw [pc]; rfl, rfl, rfl⟩
    · rintro after channel ⟨rfl⟩
      have armed : l.server.step env (.client (.armBlock l.task.token)) = some server := called
      exact waiting_armed sound.channelled _ armed
  | send block channel =>
    simp only [BlockWrite.step, pc] at moved
    cases moved
    cases called
    have idle : Gateway.call env l.server none = some l.server := rfl
    refine sound_called sound idle rfl ?_ ?_
    · refine progress_stay progress rfl rfl ?_ ?_ ?_ ?_ rfl rfl rfl
      · dsimp only
        split <;> simp
      · intro after here
        dsimp only at here
        split at here <;> cases here <;> exact ⟨block, by rw [pc]; rfl, rfl, rfl⟩
      · intro b member
        simp only [Link.transmits, pc] at member
        split at member
        · rcases List.mem_cons.mp member with rfl | old
          · exact Or.inr ⟨block, by rw [pc]; rfl, rfl⟩
          · exact Or.inl old
        · exact Or.inl member
      · exact fun b member => List.mem_append_right _ member
    · intro after probe waits
      dsimp only at waits
      split at waits
      · cases waits
        exact sound.waiting block channel (by rw [pc]; rfl)
      · cases waits
  | wait block channel =>
    have silent : Link.transmits l.task choice = none := by simp [Link.transmits, pc]
    have here : atBlock l.task.pc = some block := by rw [pc]; rfl
    simp only [BlockWrite.step, pc] at moved
    split at moved
    · rename_i packet answered
      have arrived := (sound.waiting block channel (by rw [pc]; rfl)).answered packet answered
      obtain ⟨none_, id, payload, ⟨offset, end_⟩ | ⟨offset, end_⟩⟩ :=
        received_outcome (Option.some.inj moved)
      · rw [none_] at called
        cases called
        have idle : Gateway.call env l.server none = some l.server := rfl
        refine sound_called sound idle id ?_ (by simp [end_, waitsOn])
        rw [silent]
        exact progress_advance progress here arrived offset payload end_
      · exact sound_called sound called id
          (stays offset payload (by simp [end_]) silent (by simp [end_, atBlock]))
          (by simp [end_, waitsOn])
    · cases moved
      refine sound_called sound called rfl (stays rfl rfl (by simp [BlockWrite.answered]) silent ?_) ?_
      · simp [BlockWrite.answered, atBlock]
      · simp [BlockWrite.answered, waitsOn]
    · split at moved
      · cases moved
        refine sound_called sound called rfl (stays rfl rfl (by simp) silent ?_) (by simp [waitsOn])
        rintro after ⟨rfl⟩
        exact ⟨block, here, rfl, rfl⟩
      · cases moved
  | disarm block timedOut =>
    have silent : Link.transmits l.task choice = none := by simp [Link.transmits, pc]
    simp only [BlockWrite.step, pc] at moved
    split at moved
    · cases moved
      refine sound_called sound called rfl (stays rfl rfl (by simp) silent ?_) (by simp [waitsOn])
      rintro after ⟨rfl⟩
      exact ⟨block, by rw [pc]; rfl, rfl, rfl⟩
    · cases moved
      refine sound_called sound called rfl (stays rfl rfl (by simp [BlockWrite.answered]) silent ?_) ?_
      · simp [BlockWrite.answered, atBlock]
      · simp [BlockWrite.answered, waitsOn]
  | markOffline =>
    have silent : Link.transmits l.task choice = none := by simp [Link.transmits, pc]
    simp only [BlockWrite.step, pc] at moved
    cases moved
    refine sound_called sound called rfl (stays rfl rfl ?_ silent ?_) ?_
    · dsimp only
      split <;> simp
    · intro after here
      dsimp only at here
      split at here <;> cases here
    · intro after channel waits
      dsimp only at waits
      split at waits <;> cases waits
  | report endpoint =>
    have silent : Link.transmits l.task choice = none := by simp [Link.transmits, pc]
    simp only [BlockWrite.step, pc] at moved
    cases moved
    exact sound_called sound called rfl (stays rfl rfl (by simp) silent (by simp [atBlock]))
      (by simp [waitsOn])
  | ended =>
    simp only [BlockWrite.step, pc] at moved
    cases moved

private theorem sound_deliver {index : Nat} {status : Status} {block1 : Option Bytes}
    (sound : Sound l) (ran : l.step env (.deliver index status block1) = some l') : Sound l' := by
  obtain ⟨block, found, ran⟩ := Option.bind_eq_some_iff.mp ran
  cases ran
  have member := List.mem_of_getElem? found
  have grown {b : Sent} (old : b ∈ l.received) : b ∈ block :: l.received := List.mem_cons_of_mem _ old
  refine { sound with received := ?_, acks := ?_, handling := ?_, covered := ?_, waiting := ?_ }
  · intro b inside
    rcases List.mem_cons.mp inside with rfl | old
    · exact member
    · exact sound.received b old
  · intro answer inside
    rcases List.mem_cons.mp inside with rfl | old
    · exact List.mem_cons_self
    · exact grown (sound.acks answer old)
  · exact fun b held => grown (sound.handling b held)
  · intro position below
    obtain ⟨b, old, within⟩ := sound.covered position below
    exact ⟨b, grown old, within⟩
  · intro after channel waits
    have waiting := sound.waiting after channel waits
    refine ⟨waiting.used, waiting.own, fun packet sent => ?_⟩
    obtain ⟨b, old, here⟩ := waiting.answered packet sent
    exact ⟨b, grown old, here⟩

private theorem sound_step {action : LinkAction} (sound : Sound l) (allowed : InTime l action)
    (ran : l.step env action = some l') : Sound l' := by
  cases action with
  | server action =>
    simp only [Link.step] at ran
    split at ran
    · cases ran
    · rename_i own
      obtain ⟨server, stepped, rfl⟩ := Option.map_eq_some_iff.mp ran
      refine sound_server sound stepped allowed ?_ ?_ ?_
      · rintro packet addr rfl type mine
        simp [Link.foreign, type, mine] at own
      · intro quiet
        cases action with
        | receive packet addr =>
          cases packet with
          | none => rfl
          | some packet => exact absurd rfl (quiet packet addr)
        | _ => rfl
      · intro b held
        split at held
        · cases held
        · exact sound.handling b held
  | task choice => exact sound_task sound ran
  | deliver index status block1 => exact sound_deliver sound ran
  | arrive index addr =>
    obtain ⟨⟨packet, block⟩, found, ran⟩ := Option.bind_eq_some_iff.mp ran
    obtain ⟨server, stepped, ran⟩ := Option.bind_eq_some_iff.mp ran
    cases ran
    refine sound_server sound stepped rfl (fun _ _ _ _ _ => rfl)
      (fun quiet => absurd rfl (quiet packet addr)) ?_
    rintro b ⟨rfl⟩
    exact sound.acks _ (List.mem_of_getElem? found)

theorem reached_sound (reached : (Link.machine env).Reaches InTime l) : Sound l := by
  refine reached.invariant Sound ?_ fun l action l' _ sound allowed ran =>
    sound_step sound allowed ran
  rintro l ⟨server, addr, op, path, payload, contentFormat, mid, reached, unused, rfl⟩
  exact
    { block := fun _ here => (by cases here)
      parts := fun _ member => (by cases member)
      upTo := fun _ member => (by cases member)
      atOffset := fun _ member => (by cases member)
      received := fun _ member => (by cases member)
      acks := fun _ member => (by cases member)
      handling := fun _ member => (by cases member)
      covered := fun _ below => (by cases below)
      channelled := channelled_reached reached
      taken := fun packet held mine => absurd mine (unused packet held)
      waiting := fun _ _ waits => (by cases waits) }

theorem part_getElem? {payload : Bytes} {start stop index : Nat} (above : start ≤ index)
    (below : index < stop) : (part payload start stop)[index - start]? = payload[index]? := by
  rw [part, List.getElem?_take_of_lt (by omega), List.getElem?_drop]
  congr 1
  omega

/-- **No block leaves a gap below it**: in every run in which no acknowledgement
finds a waiter after the transfer has left its block behind, the device has all
of the payload below a block that is sent for the first time. -/
theorem no_gap (reached : (Link.machine env).Reaches InTime l) : NoGap l := by
  have sound := reached_sound reached
  intro block channel _ _ index below
  obtain ⟨b, member, start, stop⟩ := sound.covered index below
  refine ⟨b, member, start, stop, ?_⟩
  rw [sound.parts b (sound.received b member)]
  exact part_getElem? start stop

/-! ## A firmware image of three blocks -/

/-- A write of 1030 bytes to /5/0/0 begins. -/
def begun : Link where
  server := Peer.server
  task := Link.spawned Peer.addr (.new 1 (.write ⟨5, 0, 0⟩ [] 42) 0 0) ⟨5, 0, 0⟩
    (List.replicate 1030 7) 42 1

/-- The task sends its next block and waits. -/
def sendBlock : List LinkAction := List.replicate 3 (.task {})

/-- The wait ends without an answer, and the block is sent again. -/
def sendAgain : List LinkAction := .task { timeout := true } :: List.replicate 3 (.task {})

/-- An answer arrives, is handed over, and the task takes it. -/
def takeAnswer (index : Nat) : List LinkAction :=
  .arrive index Peer.addr :: List.replicate 4 (.server (.recv {})) ++ [.task {}]

/-- Each block is answered once. -/
def prompt : List LinkAction :=
  sendBlock ++ .deliver 0 .continue none :: takeAnswer 0 ++ sendBlock ++
    .deliver 0 .continue none :: takeAnswer 0 ++ [.task {}, .task {}]

/-- The first block is sent twice and both copies are answered; the second
answer comes while the second block, which is lost, is waited for. -/
def overlapped : List LinkAction :=
  sendBlock ++ sendAgain ++ [.deliver 1 .continue none, .deliver 0 .continue none] ++
    takeAnswer 1 ++ sendBlock ++ takeAnswer 0 ++ [.task {}, .task {}]

/-- The task is about to send the block at an offset for the first time, and
the device has the payload up to `received`. -/
def aboutToSend (offset received : Nat) (l : Link) : Bool :=
  (match l.task.pc with
    | .send .. => true
    | _ => false) && decide (l.task.offset = offset) &&
    l.sent.all (fun b => b.start != offset) && l.received.all fun b => decide (b.stop ≤ received)

private theorem start_begun : (Link.machine Peer.env).start begun :=
  ⟨Peer.server, Peer.addr, _, _, _, _, _, .start ⟨0, some "coaps://gateway", [], _, 0, rfl⟩,
    fun _ held => (by cases held), rfl⟩

private theorem aboutToSend_spec {offset received : Nat} (seen : aboutToSend offset received l = true) :
    (∃ block channel, l.task.pc = .send block channel) ∧ l.task.offset = offset ∧
      (∀ b ∈ l.sent, b.start ≠ offset) ∧ ∀ b ∈ l.received, b.stop ≤ received := by
  simp only [aboutToSend, Bool.and_eq_true, List.all_eq_true, decide_eq_true_eq, bne_iff_ne] at seen
  obtain ⟨⟨⟨sends, offset⟩, first⟩, received⟩ := seen
  refine ⟨?_, offset, first, received⟩
  split at sends
  · exact ⟨_, _, ‹_›⟩
  · cases sends

/-- With prompt answers the device has the first 1024 bytes when the third
block is sent. -/
theorem prompt_no_gap : ∃ last, (Link.machine Peer.env).exec InTime begun prompt = some last ∧
    NoGap last ∧ ∀ index < 1024, Has last index := by
  obtain ⟨last, ran, reached, seen⟩ := Machine.exec_reaches (Link.machine Peer.env) InTime begun
    prompt (aboutToSend 1024 1024) start_begun (by decide +kernel)
  obtain ⟨⟨block, channel, sends⟩, offset, first, -⟩ := aboutToSend_spec seen
  have gapless := no_gap reached
  refine ⟨last, ran, gapless, fun index below => ?_⟩
  exact gapless block channel sends (offset ▸ first) index (offset ▸ below)

/-- The second answer of the first block is taken for that of the second one,
and the third block is sent though the device never got the second. -/
theorem overlapped_gap : ∃ last, (Link.machine Peer.env).Reaches Machine.always last ∧ ¬ NoGap last ∧
    last.task.offset = 1024 ∧ ∀ index, 512 ≤ index → ¬ Has last index := by
  obtain ⟨last, -, reached, seen⟩ := Machine.exec_reaches (Link.machine Peer.env) Machine.always begun
    overlapped (aboutToSend 1024 512) start_begun (by decide +kernel)
  obtain ⟨⟨block, channel, sends⟩, offset, first, received⟩ := aboutToSend_spec seen
  have lacks (index : Nat) (beyond : 512 ≤ index) : ¬ Has last index := by
    rintro ⟨b, member, -, stop, -⟩
    have bound := received b member
    omega
  refine ⟨last, reached, fun gapless => ?_, offset, lacks⟩
  exact lacks 512 (Nat.le_refl _) (gapless block channel sends (offset ▸ first) 512 (by omega))

end Lwm2mServer.BlockTransfer
