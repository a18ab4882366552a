import Lwm2mServer.BlockTransfer
import Lwm2mServer.Responses
import Lwm2mServer.RetransmissionEnd

/-! Where a success comes from. An operation's response channel is fired by the
receive loop, by its sweeps and by the tasks of `client.rs`; all of them can
report a failure, but a success is only ever what a device acknowledged: each
one stands for an acknowledgement of class 2 that came in under the operation's
own token. -/
namespace Lwm2mServer.Successes
open Library BlockAcks BlockTransfer GatewaySteps InFlight OperationIds RecvSteps RetransmissionEnd

/-- The gateway with the acknowledgements that came in, and the operation each
response channel was opened for. -/
structure Watched where
  gateway : Gateway
  acks : List Packet := []
  opened : List (Nat × UInt32) := []

/-- The acknowledgement that arrives in a step. -/
def arrives : GatewayAction → List Packet
  | .server (.receive (some packet) _) => if packet.type = .acknowledgement then [packet] else []
  | _ => []

/-- The channels a step opens. -/
def opens (g : Gateway) : GatewayAction → List (Nat × UInt32)
  | .request .. => [(g.channels + 1, g.nextOpId), (g.channels, g.nextOpId)]
  | .ping => [(g.channels, g.nextPingOpId)]
  | .server (.recv _) =>
    match g.server.recv with
    | .dispatchReset .. => [(g.channels, g.internalOpId)]
    | _ => []
  | _ => []

def step (env : Env) (w : Watched) (act : GatewayAction) : Option Watched :=
  (w.gateway.step env act).map fun next =>
    { gateway := next
      acks := arrives act ++ w.acks
      opened := opens w.gateway act ++ w.opened }

def machine (env : Env) : Machine Watched GatewayAction where
  start w := ∃ gateway, (Gateway.machine env).start gateway ∧ w = { gateway }
  step := step env

/-- What a device says with an acknowledgement. -/
inductive Confirms (packet : Packet) : ResourceValue → Prop where
  | final (result : coapResponseToResult packet = .ok value) : Confirms packet value
  | goesOn (code : packet.code = .response .continue) : Confirms packet (.coapResponse 2 31)

/-- A reply is a failure, or an acknowledgement came in under the token of the
operation the channel was opened for. -/
def Founded (acks : List Packet) (opened : List (Nat × UInt32)) (reply : Reply) : Prop :=
  ∀ value, reply.2 = .ok value → ∃ id, (reply.1, id) ∈ opened ∧
    ∃ packet ∈ acks, tokenArray packet.token = tokenOfId id ∧ Confirms packet value

/-- The channels of an operation were opened for it. -/
def Owned (opened : List (Nat × UInt32)) (id : UInt32) (responseTx : Nat) (firstAckTx : Option Nat) :
    Prop :=
  (responseTx, id) ∈ opened ∧ ∀ channel ∈ firstAckTx, (channel, id) ∈ opened

variable {env : Env} {s next : Server} {g g' : Gateway} {w w' : Watched} {action : Action}
  {act : GatewayAction} {choice : Choice} {packet : Packet} {addr : SocketAddr} {reply : Reply}
  {acks more : List Packet} {opened wider : List (Nat × UInt32)}

/-- An acknowledgement that confirms something has a code of class 2. -/
theorem Confirms.class_two {value : ResourceValue} (confirms : Confirms packet value) :
    packet.code.isSuccess = true ∧ ∃ detail, value = .coapResponse 2 detail := by
  cases confirms with
  | goesOn code =>
    rw [code]
    exact ⟨rfl, _, rfl⟩
  | final result =>
    unfold coapResponseToResult at result
    split at result
    · rename_i status code
      rw [code]
      cases status <;> simp [responseTypeToClassDetail] at result <;>
        exact ⟨rfl, _, result.symm⟩
    · cases result

theorem Founded.mono (founded : Founded acks opened reply) (later : ∀ packet ∈ acks, packet ∈ more)
    (wide : ∀ at_ ∈ opened, at_ ∈ wider) : Founded more wider reply := by
  intro value same
  obtain ⟨id, channel, packet, member, token, confirms⟩ := founded value same
  exact ⟨id, wide _ channel, packet, later packet member, token, confirms⟩

theorem founded_error {channel : Nat} {e : LwM2mError} : Founded acks opened (channel, .error e) := by
  intro value same
  cases same

/-! ## What the server fires -/

theorem timeoutReplies_error {dev : Device} (member : reply ∈ DeviceRegistry.timeoutReplies dev) :
    reply.2 = .error .timeout := by
  obtain ⟨op, -, rfl⟩ := List.mem_map.mp member
  rfl

theorem removeByAddr_error {r : DeviceRegistry} (member : reply ∈ (r.removeByAddr addr).2.1) :
    reply.2 = .error .timeout := by
  unfold DeviceRegistry.removeByAddr at member
  split at member
  · cases member
  · split at member
    · cases member
    · exact timeoutReplies_error member

theorem expireStale_error {r : DeviceRegistry} {now : Instant} {graceSecs : UInt32}
    (member : reply ∈ (r.expireStale now graceSecs).2.1) : reply.2 = .error .timeout := by
  have fold (ids : List UInt32) (acc : List String × List Reply × DeviceRegistry)
      (before : ∀ reply ∈ acc.2.1, reply.2 = .error .timeout) :
      ∀ reply ∈ (ids.foldl DeviceRegistry.expireOne acc).2.1, reply.2 = .error .timeout := by
    induction ids generalizing acc with
    | nil => exact before
    | cons id ids ih =>
      refine ih _ fun reply member => ?_
      obtain ⟨removed, replies, r⟩ := acc
      simp only [DeviceRegistry.expireOne] at member
      split at member
      · exact before reply member
      · rcases List.mem_append.mp member with old | new
        · exact before reply old
        · exact timeoutReplies_error new
  exact fold _ _ (fun _ none => by cases none) reply member

theorem timeoutInFlight_error {r : DeviceRegistry} {now : Instant} {maxSecs : Nat}
    (member : reply ∈ (r.timeoutInFlight now maxSecs).1) : reply.2 = .error .timeout := by
  obtain ⟨dev, -, member⟩ := List.mem_flatMap.mp member
  obtain ⟨op, -, rfl⟩ := List.mem_map.mp member
  rfl

theorem holds_of_complete {r : DeviceRegistry} {token : Token} {op : PendingOperation}
    (taken : (r.completeInFlight addr token).1 = some op) : ∃ id, Holds r (id, token) op := by
  unfold DeviceRegistry.completeInFlight at taken
  split at taken
  · cases taken
  · rename_i id _
    split at taken
    · cases taken
    · rename_i dev stored
      exact ⟨id, dev, stored, taken⟩

/-- An operation the receive loop answers with what an acknowledgement says. -/
def Acknowledged (s : Server) (reply : Reply) : Prop :=
  ∃ packet addr op id, s.recv = .ackInFlight packet addr ∧
    Holds s.devices (id, tokenArray packet.token) op ∧
    reply = (op.responseTx, coapResponseToResult packet)

private theorem replies_recv (ran : s.recvStep env choice = some next) (member : reply ∈ next.replies) :
    reply ∈ s.replies ∨ (∃ e, reply.2 = .error e) ∨ Acknowledged s reply := by
  have kept {replies : List Reply} (same : replies = s.replies) (member : reply ∈ replies) :
      reply ∈ s.replies ∨ (∃ e, reply.2 = .error e) ∨ Acknowledged s reply :=
    Or.inl (same ▸ member)
  cases position : s.recv with
  | ackInFlight packet addr =>
    simp only [Server.recvStep, position] at ran
    cases ran
    cases taken : (s.devices.completeInFlight addr (tokenArray packet.token)).1 with
    | none =>
      rw [taken] at member
      exact Or.inl member
    | some op =>
      rw [taken] at member
      rcases List.mem_cons.mp member with rfl | old
      · obtain ⟨id, holds⟩ := holds_of_complete taken
        exact Or.inr (Or.inr ⟨packet, addr, op, id, position, holds, rfl⟩)
      · exact Or.inl old
  | rstInFlight packet addr =>
    simp only [Server.recvStep, position] at ran
    cases ran
    unfold Server.answer at member
    split at member
    · rcases List.mem_cons.mp member with rfl | old
      · exact Or.inr (Or.inl ⟨_, rfl⟩)
      · exact Or.inl old
    · exact Or.inl member
  | deregister addr =>
    simp only [Server.recvStep, position] at ran
    cases ran
    rcases List.mem_append.mp member with new | old
    · exact Or.inr (Or.inl ⟨_, removeByAddr_error new⟩)
    · exact Or.inl old
  | touch | register | drain | findReporter | findVersions | mergeReport =>
    simp only [Server.recvStep, position] at ran
    obtain ⟨result, -, ran⟩ := Option.bind_eq_some_iff.mp ran
    cases ran
    exact kept rfl member
  | begin | ackWrite | rstWrite | ackComplete | askIncluded | ackValidate | ackBlock =>
    simp only [Server.recvStep, position] at ran
    split at ran <;> cases ran <;> exact kept rfl member
  | acknowledge =>
    simp only [Server.recvStep, position] at ran
    split at ran
    · split at ran <;> cases ran <;> exact kept rfl member
    · cases ran
      exact kept rfl member
  | idle =>
    simp only [Server.recvStep, position] at ran
    cases ran
  | _ =>
    simp only [Server.recvStep, position] at ran
    cases ran
    exact kept rfl member

/-- A reply of the server is old, a failure, or what an acknowledgement says. -/
theorem replies_step (ran : s.step env action = some next) (member : reply ∈ next.replies) :
    reply ∈ s.replies ∨ (∃ e, reply.2 = .error e) ∨ Acknowledged s reply := by
  have swept {replies : List Reply} (member : reply ∈ replies ++ s.replies)
      (failed : ∀ reply ∈ replies, reply.2 = .error .timeout) :
      reply ∈ s.replies ∨ (∃ e, reply.2 = .error e) ∨ Acknowledged s reply := by
    rcases List.mem_append.mp member with new | old
    · exact Or.inr (Or.inl ⟨_, failed _ new⟩)
    · exact Or.inl old
  cases action with
  | recv choice => exact replies_recv ran member
  | receive packet addr =>
    simp only [Server.step] at ran
    split at ran <;> cases ran <;> exact Or.inl member
  | phase i choice =>
    obtain ⟨task, -, ran⟩ := Option.bind_eq_some_iff.mp ran
    obtain ⟨outcome, -, ran⟩ := Option.bind_eq_some_iff.mp ran
    cases ran
    exact Or.inl member
  | includeDevice id =>
    cases ran
    simp only [Server.includeStep] at member
    split at member <;> exact Or.inl member
  | exclusion i =>
    obtain ⟨task, -, ran⟩ := Option.bind_eq_some_iff.mp ran
    dsimp only at ran
    split at ran
    · obtain ⟨found, -, ran⟩ := Option.bind_eq_some_iff.mp ran
      split at ran <;> cases ran <;> exact Or.inl member
    case h_5 =>
      cases ran
      exact swept member fun _ => removeByAddr_error
    all_goals cases ran <;> exact Or.inl member
  | removal i =>
    obtain ⟨task, -, ran⟩ := Option.bind_eq_some_iff.mp ran
    split at ran <;> cases ran
    exact swept member fun _ => removeByAddr_error
  | housekeeping =>
    cases ran
    simp only [Server.housekeepingStep] at member
    split at member
    · exact swept member fun _ => expireStale_error
    · exact swept member fun _ => timeoutInFlight_error
    · exact Or.inl member
    · exact Or.inl member
  | client call =>
    cases ran
    cases call with
    | completeInFlight addr token =>
      simp only [Server.clientStep, Server.answer] at member
      split at member
      · rcases List.mem_cons.mp member with rfl | old
        · exact Or.inr (Or.inl ⟨_, rfl⟩)
        · exact Or.inl old
      · exact Or.inl member
    | _ => exact Or.inl member
  | _ =>
    cases ran
    exact Or.inl member

/-! ## What the receive loop has at hand -/

/-- The acknowledgement the receive loop has taken and not yet used. -/
def looking : Recv → Option Packet
  | .ackInFlight packet _ => some packet
  | recv => inHand recv

theorem looking_recv (ran : s.recvStep env choice = some next) (held : looking next.recv = some packet) :
    looking s.recv = some packet := by
  have looks {recv : Recv} (inHand_ : inHand recv = some packet) : looking recv = some packet := by
    cases recv with
    | ackInFlight => cases inHand_
    | _ => exact inHand_
  by_cases last : ∃ packet addr, next.recv = .ackInFlight packet addr
  · obtain ⟨answer, addr, position⟩ := last
    rw [position] at held
    cases held
    have goes := goes_recv ran
    rw [position] at goes
    generalize target : Recv.ackInFlight packet addr = recv at goes
    cases goes with
    | inFlight from_ =>
      cases target
      rw [from_]
      rfl
    | @handle from_ source =>
      have other := handlePacket_cases (fun recv => recv ≠ .ackInFlight packet addr) env from_ source
        (by simp) (by simp) (by simp) (by simp) (by simp) (by simp)
      exact absurd target.symm other
    | @resume response source rest =>
      cases rest with
      | report payload =>
        simp only [AfterResponse.resume] at target
        split at target <;> cases target
      | _ => cases target
    | inside carries =>
      rw [← target] at carries
      cases carries
    | _ => cases target
  · apply looks
    apply inHand_recv ran
    generalize next.recv = recv at held last
    cases recv with
    | ackInFlight => exact absurd ⟨_, _, rfl⟩ last
    | _ => exact held

/-- What is looked up came in. -/
def Taken (acks : List Packet) (recv : Recv) : Prop :=
  ∀ packet, looking recv = some packet → packet ∈ acks

/-! ## The channels of block-wise writes -/

/-- A channel is armed under one token only, and what is sent on it is an
acknowledgement with that token. -/
structure Listens (acks : List Packet) (s : Server) (token : Token) (channel : Nat) : Prop where
  used : channel < s.blockChannels.next
  own : ∀ probe, s.blockAcks.lookup probe = some channel → probe = token
  heard : ∀ packet, s.blockChannels.cell channel = .sent packet →
    packet ∈ acks ∧ tokenArray packet.token = token

theorem Listens.mono {token : Token} {channel : Nat} (listens : Listens acks s token channel)
    (later : ∀ packet ∈ acks, packet ∈ more) : Listens more s token channel where
  used := listens.used
  own := listens.own
  heard packet sent := ⟨later packet (listens.heard packet sent).1, (listens.heard packet sent).2⟩

theorem listens_move {token : Token} {channel : Nat} (listens : Listens acks s token channel)
    (taken : Taken acks s.recv) (moved : BlockMove s action next) :
    Listens acks next token channel := by
  cases moved with
  | same same channels =>
    constructor
    · rw [channels]
      exact listens.used
    · rw [same]
      exact listens.own
    · rw [channels]
      exact listens.heard
  | @answered packet addr sender _ choice position held erased channels =>
    constructor
    · rw [channels, Oneshots.send, Oneshots.resolve_next]
      exact listens.used
    · intro probe found
      rw [erased, Table.lookup_erase_if] at found
      split at found
      · cases found
      · exact listens.own probe found
    · intro answer found
      rw [channels, Oneshots.send] at found
      rcases s.blockChannels.resolve_cell_cases sender (.sent packet) channel with same | ⟨rfl, -, sent⟩
      · exact listens.heard answer (same ▸ found)
      · rw [sent] at found
        cases found
        exact ⟨taken packet (by rw [position]; rfl), listens.own _ held⟩
  | disarmed other erased channels =>
    constructor
    · rw [channels, disarm_next]
      exact listens.used
    · intro probe found
      rw [erased, disarm_lookup] at found
      split at found
      · cases found
      · exact listens.own probe found
    · intro answer found
      rw [channels] at found
      rcases disarm_cell s other channel with same | ⟨closed, -⟩
      · exact listens.heard answer (same ▸ found)
      · rw [closed] at found
        cases found
  | armed other inserted channels =>
    constructor
    · rw [channels, Oneshots.channel, disarm_next]
      exact Nat.lt_succ_of_lt listens.used
    · intro probe found
      rw [inserted, Table.lookup_insert_if] at found
      split at found
      · cases found
        exact absurd listens.used (Nat.lt_irrefl _)
      · exact listens.own probe found
    · intro answer found
      rw [channels] at found
      change (s.disarmBlock other).blockChannels.cell channel = .sent answer at found
      rcases disarm_cell s other channel with same | ⟨closed, -⟩
      · exact listens.heard answer (same ▸ found)
      · rw [closed] at found
        cases found

/-- The channel a task has just put into the map. -/
theorem listens_armed (channelled : Channelled s) {token : Token}
    (ran : s.step env (.client (.armBlock token)) = some next) :
    Listens acks next token s.blockChannels.next := by
  cases ran
  constructor
  · simp only [Server.clientStep, Oneshots.channel, disarm_next]
    exact Nat.lt_succ_self _
  · intro probe found
    simp only [Server.clientStep, Table.lookup_insert_if] at found
    split at found
    · assumption
    · exact absurd (channelled.used probe _ found) (Nat.lt_irrefl _)
  · intro packet found
    change (s.disarmBlock token).blockChannels.cell s.blockChannels.next = .sent packet at found
    have fresh := channelled.fresh s.blockChannels.next (Nat.le_refl _)
    rcases disarm_cell s token s.blockChannels.next with same | ⟨-, held⟩
    · rw [same.trans fresh] at found
      cases found
    · exact absurd (channelled.used _ _ held) (Nat.lt_irrefl _)

/-! ## The tasks of block-wise writes -/

/-- A task fires what its block was answered with, or a failure. -/
theorem received_founded {task : BlockWrite} {block : Block} (came : packet ∈ acks)
    (own : tokenArray packet.token = task.token)
    (owned : Owned opened task.opId task.responseTx task.firstAckTx)
    (fires : reply ∈ (task.received block packet).answers) : Founded acks opened reply := by
  unfold BlockWrite.received at fires
  split at fires
  · rename_i code
    split at fires
    · cases List.mem_singleton.mp fires
      exact founded_error
    · obtain ⟨channel, first, rfl⟩ := Option.map_eq_some_iff.mp (Option.mem_toList.mp fires)
      intro value same
      cases same
      exact ⟨task.opId, owned.2 channel first, packet, came, own, .goesOn code⟩
  · rename_i status _ code
    cases List.mem_singleton.mp fires
    intro value same
    refine ⟨task.opId, owned.1, packet, came, own, .final ?_⟩
    rw [coapResponseToResult, code]
    exact same
  · cases List.mem_singleton.mp fires
    exact founded_error

/-- What a block-wise write keeps of its operation. -/
theorem received_owned {task : BlockWrite} {block : Block}
    (owned : Owned opened task.opId task.responseTx task.firstAckTx) :
    Owned opened (task.received block packet).task.opId (task.received block packet).task.responseTx
      (task.received block packet).task.firstAckTx := by
  unfold BlockWrite.received
  split
  · split
    · exact owned
    · exact ⟨owned.1, fun _ none => by cases none⟩
  · exact owned
  · exact owned

/-- What a step of a task does with the channels it fires and waits on. -/
structure TaskMove (s : Server) (task : BlockWrite) (outcome : ClientOutcome BlockWrite) : Prop where
  token : outcome.task.token = task.token
  owned : ∀ opened, Owned opened task.opId task.responseTx task.firstAckTx →
    Owned opened outcome.task.opId outcome.task.responseTx outcome.task.firstAckTx
  fires : ∀ reply ∈ outcome.answers, (∃ e, reply.2 = .error e) ∨
    ∃ block channel packet, waitsOn task.pc = some (block, channel) ∧
      s.blockChannels.cell channel = .sent packet ∧ reply ∈ (task.received block packet).answers
  waits : ∀ block channel, waitsOn outcome.task.pc = some (block, channel) →
    (∃ before, waitsOn task.pc = some (before, channel)) ∨
      (outcome.call = some (.armBlock task.token) ∧ channel = s.blockChannels.next)

/-- The task stays with its operation and fires at most a failure. -/
private theorem task_fails {task : BlockWrite} {outcome : ClientOutcome BlockWrite}
    (same : ∃ pc mid, outcome.task = { task with pc, mid })
    (fails : ∀ reply ∈ outcome.answers, ∃ e, reply.2 = .error e)
    (waits : ∀ block channel, waitsOn outcome.task.pc = some (block, channel) →
      (∃ before, waitsOn task.pc = some (before, channel)) ∨
        (outcome.call = some (.armBlock task.token) ∧ channel = s.blockChannels.next)) :
    TaskMove s task outcome := by
  obtain ⟨pc, mid, same⟩ := same
  refine ⟨?_, fun opened owned => ?_, fun reply fired => Or.inl (fails reply fired), waits⟩
  · rw [same]
    rfl
  · rw [same]
    exact owned

private theorem received_moves {task : BlockWrite} {block : Block} :
    (task.received block packet).task.token = task.token ∧
      waitsOn (task.received block packet).task.pc = none := by
  unfold BlockWrite.received
  split
  · split <;> exact ⟨rfl, rfl⟩
  · exact ⟨rfl, rfl⟩
  · exact ⟨rfl, rfl⟩

theorem task_move {task : BlockWrite} {outcome : ClientOutcome BlockWrite}
    (moved : task.step env s choice = some outcome) : TaskMove s task outcome := by
  have alone {result : LwM2mResult} {e : LwM2mError} (failed : result = .error e) :
      ∀ reply ∈ [((task.responseTx, result) : Reply)], ∃ e, reply.2 = .error e := by
    intro reply fired
    cases List.mem_singleton.mp fired
    exact ⟨e, failed⟩
  unfold BlockWrite.step at moved
  split at moved
  case h_1 =>
    dsimp only at moved
    split at moved
    · split at moved
      · cases moved
        exact task_fails ⟨_, _, rfl⟩ (alone rfl) (by simp [BlockWrite.answered, waitsOn])
      · cases moved
        exact task_fails ⟨_, _, rfl⟩ (by simp) (by simp [waitsOn])
    · cases moved
      exact task_fails ⟨_, _, rfl⟩ (by simp) (by simp [waitsOn])
  case h_2 =>
    cases moved
    refine task_fails ⟨_, _, rfl⟩ (by simp) fun block channel waits => Or.inr ?_
    cases waits
    exact ⟨rfl, rfl⟩
  case h_3 block channel pc =>
    cases moved
    refine task_fails ⟨_, _, rfl⟩ (by simp) fun after channel' waits => Or.inl ?_
    rw [pc]
    dsimp only at waits
    split at waits <;> cases waits
    exact ⟨_, rfl⟩
  case h_4 block channel pc =>
    split at moved
    · rename_i packet sent
      cases moved
      refine ⟨received_moves.1, fun opened owned => received_owned owned, fun reply fired => ?_,
        fun after channel waits => ?_⟩
      · exact Or.inr ⟨block, channel, packet, by rw [pc]; rfl, sent, fired⟩
      · rw [received_moves.2] at waits
        cases waits
    · cases moved
      exact task_fails ⟨_, _, rfl⟩ (alone rfl) (by simp [BlockWrite.answered, waitsOn])
    · split at moved <;> cases moved
      exact task_fails ⟨_, _, rfl⟩ (by simp) (by simp [waitsOn])
  case h_5 =>
    dsimp only at moved
    split at moved
    · cases moved
      exact task_fails ⟨_, _, rfl⟩ (by simp) (by simp [waitsOn])
    · cases moved
      exact task_fails ⟨_, _, rfl⟩ (alone rfl) (by simp [BlockWrite.answered, waitsOn])
  case h_6 =>
    cases moved
    refine task_fails ⟨_, _, rfl⟩ (by simp) fun block channel waits => ?_
    dsimp only at waits
    split at waits <;> cases waits
  case h_7 =>
    cases moved
    exact task_fails ⟨_, _, rfl⟩ (by simp) (by simp [waitsOn])
  case h_8 => cases moved

/-! ## A step of the gateway -/

/-- The channels a step opens are new ones, and different ones. -/
private theorem opens_step (ran : g.step env act = some g') :
    g.channels ≤ g'.channels ∧
      (∀ entry ∈ opens g act, g.channels ≤ entry.1 ∧ entry.1 < g'.channels) ∧
      ((opens g act).map (·.1)).Nodup := by
  have none_ {act : GatewayAction} (same : g'.channels = g.channels) (nothing : opens g act = []) :
      g.channels ≤ g'.channels ∧
        (∀ entry ∈ opens g act, g.channels ≤ entry.1 ∧ entry.1 < g'.channels) ∧
        ((opens g act).map (·.1)).Nodup := by
    rw [same, nothing]
    exact ⟨Nat.le_refl _, by simp, .nil⟩
  by_cases asks : ∃ addr command firstAck, act = .request addr command firstAck
  · obtain ⟨addr, command, firstAck, rfl⟩ := asks
    cases ran
    refine ⟨Nat.le_add_right _ _, fun entry member => ?_, by simp [opens]⟩
    simp only [opens, List.mem_cons, List.not_mem_nil, or_false] at member
    rcases member with rfl | rfl
    · exact ⟨Nat.le_succ _, Nat.lt_succ_self _⟩
    · exact ⟨Nat.le_refl _, Nat.lt_add_of_pos_right Nat.two_pos⟩
  · cases gateway_move ran with
    | recv stepped =>
      cases position : g.server.recv with
      | dispatchReset endpoint addr =>
        simp only [Gateway.afterRecv, opens, position, Gateway.enqueue]
        refine ⟨Nat.le_succ _, fun entry member => ?_, by simp⟩
        cases List.mem_singleton.mp member
        exact ⟨Nat.le_refl _, Nat.lt_succ_self _⟩
      | begin endpoint addr =>
        refine none_ ?_ (by simp only [opens, position])
        simp only [Gateway.afterRecv, position]
        split <;> rfl
      | _ => exact none_ (by simp only [Gateway.afterRecv, position]) (by simp only [opens, position])
    | ping =>
      refine ⟨Nat.le_succ _, fun entry member => ?_, by simp [opens]⟩
      cases List.mem_singleton.mp member
      exact ⟨Nat.le_refl _, Nat.lt_succ_self _⟩
    | request => exact (asks ⟨_, _, _, rfl⟩).elim
    | @server action server quiet =>
      refine none_ rfl ?_
      cases action with
      | recv => cases quiet
      | _ => rfl
    | _ => exact none_ rfl rfl

/-- An operation joins the channel with the channels opened for it. -/
private theorem queue_step (tidy : Tidy g.server.devices.byId) (ran : g.step env act = some g')
    {entry : SocketAddr × PendingOperation} (member : entry ∈ g'.queue) :
    entry ∈ g.queue ∨
      Owned (opens g act) entry.2.id entry.2.responseTx entry.2.firstAckTx := by
  have joined {act : GatewayAction} {addr : SocketAddr} {op : PendingOperation}
      (queue : g'.queue = g.queue ++ [(addr, op)])
      (owned : Owned (opens g act) op.id op.responseTx op.firstAckTx) :
      entry ∈ g.queue ∨
        Owned (opens g act) entry.2.id entry.2.responseTx entry.2.firstAckTx := by
    rw [queue] at member
    rcases List.mem_append.mp member with old | new
    · exact Or.inl old
    · cases List.mem_singleton.mp new
      exact Or.inr owned
  by_cases asks : ∃ addr command firstAck, act = .request addr command firstAck
  · obtain ⟨addr, command, firstAck, rfl⟩ := asks
    cases ran
    refine joined rfl ⟨by simp [opens, PendingOperation.new], fun channel first => ?_⟩
    dsimp only at first
    split at first <;> cases first
    exact List.mem_cons_self
  · cases gateway_move ran with
    | recv stepped =>
      cases position : g.server.recv with
      | dispatchReset endpoint addr =>
        refine @joined _ addr (.new g.internalOpId (.execute factoryResetPath none) g.channels
          g.server.clock) (by simp only [Gateway.afterRecv, position, Gateway.enqueue]) ?_
        simp only [opens, position]
        exact ⟨List.mem_singleton.mpr rfl, fun _ none => by cases none⟩
      | drain addr =>
        simp only [Gateway.afterRecv, position, drainPending_empty tidy, List.map_nil,
          List.append_nil] at member
        exact Or.inl member
      | begin endpoint addr =>
        simp only [Gateway.afterRecv, position] at member
        split at member <;> exact Or.inl member
      | _ =>
        simp only [Gateway.afterRecv, position] at member
        exact Or.inl member
    | ping => exact joined rfl ⟨List.mem_singleton.mpr rfl, fun _ none => by cases none⟩
    | request => exact (asks ⟨_, _, _, rfl⟩).elim
    | block front | unsendable front | single front =>
      rw [front]
      exact Or.inl (List.mem_cons_of_mem _ member)
    | _ => exact Or.inl member

/-- An operation in flight was in flight before or in the channel. -/
private theorem flights_step (ran : g.step env act = some g') {place : UInt32 × Token}
    {op : PendingOperation} (holds : Holds g'.server.devices place op) :
    Holds g.server.devices place op ∨ ∃ entry ∈ g.queue, op.id = entry.2.id ∧
      op.responseTx = entry.2.responseTx ∧ op.firstAckTx = entry.2.firstAckTx := by
  by_cases dispatches : act = .dispatch
  · subst dispatches
    cases dispatch_move ran with
    | block | unsendable => exact Or.inl holds
    | @single addr op queue bytes server front small encoded placed =>
      cases placed
      have put : g.server.devices.apply (.placeInFlight addr (tokenOfId op.id)
          { op with attempts := op.attempts + 1 }) =
        some (g.server.devices.placeInFlight addr (tokenOfId op.id)
          { op with attempts := op.attempts + 1 }) := rfl
      rcases holds_apply put holds with old | ⟨addr, call, found⟩
      · exact Or.inl old
      · obtain ⟨-, -, same⟩ := DeviceRegistry.Op.placeInFlight.inj call
        rw [front, ← same]
        exact Or.inr ⟨_, List.mem_cons_self, rfl, rfl, rfl⟩
  · exact Or.inl (holds_step dispatches ran holds)

/-- Only the dispatch task and the block-wise writes themselves touch them. -/
private theorem writes_kept (other : act ≠ .dispatch) (moves : ∀ i choice, act ≠ .blockWrite i choice)
    (ran : g.step env act = some g') :
    g'.blockWrites = g.blockWrites ∧ g'.answers = g.answers := by
  cases gateway_move ran with
  | recv stepped =>
    simp only [Gateway.afterRecv]
    split
    · exact ⟨rfl, rfl⟩
    · exact ⟨rfl, rfl⟩
    · split <;> exact ⟨rfl, rfl⟩
    · exact ⟨rfl, rfl⟩
  | block | unsendable | single => exact (other rfl).elim
  | blockWrite => exact (moves _ _ rfl).elim
  | _ => exact ⟨rfl, rfl⟩

private theorem taken_step (taken : Taken acks g.server.recv) (ran : g.step env act = some g') :
    Taken (arrives act ++ acks) g'.server.recv := by
  intro packet held
  have old {recv : Recv} (same : recv = g.server.recv) (held : looking recv = some packet) :
      packet ∈ arrives act ++ acks :=
    List.mem_append.mpr (Or.inr (taken packet (same ▸ held)))
  rcases server_part ran with same | ⟨action, stepped, by_⟩
  · exact old (by rw [same]) held
  · cases action with
    | recv choice => exact old rfl (looking_recv stepped held)
    | receive arrived addr =>
      simp only [Server.step] at stepped
      split at stepped
      · rename_i arrived idle
        generalize g'.server = server at stepped held
        cases stepped
        simp only [looking, inHand] at held
        split at held <;> cases held
        rename_i acknowledges
        rcases by_ with rfl | ⟨call, other⟩
        · simp only [arrives]
          rw [if_pos acknowledges]
          exact List.mem_cons_self
        · cases other
      · generalize g'.server = server at stepped held
        cases stepped
        exact old rfl held
      · cases stepped
    | _ => exact old (Responses.recv_kept stepped (by simp) (by simp)) held

/-! ## Every run -/

theorem Owned.mono {id : UInt32} {responseTx : Nat} {firstAckTx : Option Nat}
    (owned : Owned opened id responseTx firstAckTx) (wide : ∀ entry ∈ opened, entry ∈ wider) :
    Owned wider id responseTx firstAckTx :=
  ⟨wide _ owned.1, fun channel first => wide _ (owned.2 channel first)⟩

/-- Whoever can fire a channel has it from its operation. -/
structure Grounded (w : Watched) : Prop where
  tidy : Tidy w.gateway.server.devices.byId
  channelled : Channelled w.gateway.server
  below : ∀ entry ∈ w.opened, entry.1 < w.gateway.channels
  once : (w.opened.map (·.1)).Nodup
  queue : ∀ entry ∈ w.gateway.queue,
    Owned w.opened entry.2.id entry.2.responseTx entry.2.firstAckTx
  flights : ∀ place op, Holds w.gateway.server.devices place op →
    Owned w.opened op.id op.responseTx op.firstAckTx
  writes : ∀ i task, w.gateway.blockWrites.get? i = some task →
    Owned w.opened task.opId task.responseTx task.firstAckTx ∧
      ∀ block channel, waitsOn task.pc = some (block, channel) →
        Listens w.acks w.gateway.server task.token channel
  taken : Taken w.acks w.gateway.server.recv
  replies : ∀ reply ∈ w.gateway.server.replies, Founded w.acks w.opened reply
  answers : ∀ reply ∈ w.gateway.answers, Founded w.acks w.opened reply

/-- The receive loop fires a channel with what the acknowledgement says that it
has at hand. -/
private theorem acknowledged_founded (grounded : Grounded w)
    (said : Acknowledged w.gateway.server reply) : Founded w.acks w.opened reply := by
  obtain ⟨packet, addr, op, id, position, holds, rfl⟩ := said
  intro value same
  have owned := (grounded.flights _ op holds).1
  obtain ⟨dev, stored, entry⟩ := holds
  have token := (grounded.tidy id dev stored).2 _ op entry
  exact ⟨op.id, owned, packet, grounded.taken packet (by rw [position]; rfl), token, .final same⟩

private theorem replies_founded (grounded : Grounded w) (ran : w.gateway.step env act = some g')
    (member : reply ∈ g'.server.replies) : Founded w.acks w.opened reply := by
  rcases server_part ran with same | ⟨action, stepped, -⟩
  · exact grounded.replies reply (same ▸ member)
  · rcases replies_step stepped member with old | ⟨e, failed⟩ | said
    · exact grounded.replies reply old
    · intro value same
      rw [failed] at same
      cases same
    · exact acknowledged_founded grounded said

private theorem listens_step {token : Token} {channel : Nat} (ran : g.step env act = some g')
    (taken : Taken acks g.server.recv) (listens : Listens acks g.server token channel) :
    Listens acks g'.server token channel := by
  rcases server_part ran with same | ⟨action, stepped, -⟩
  · rwa [same]
  · exact listens_move listens taken (block_move stepped)

private theorem channelled_kept (ran : g.step env act = some g') (channelled : Channelled g.server) :
    Channelled g'.server := by
  rcases server_part ran with same | ⟨action, stepped, -⟩
  · rwa [same]
  · exact channelled_step channelled stepped

/-- The tasks after a step: what each holds comes from its operation. -/
private theorem writes_step (grounded : Grounded w) (ran : w.gateway.step env act = some g') :
    (∀ i task, g'.blockWrites.get? i = some task →
      Owned w.opened task.opId task.responseTx task.firstAckTx ∧
        ∀ block channel, waitsOn task.pc = some (block, channel) →
          Listens w.acks g'.server task.token channel) ∧
      ∀ reply ∈ g'.answers, Founded w.acks w.opened reply := by
  have kept (i : Nat) (task : BlockWrite) (held : w.gateway.blockWrites.get? i = some task) :
      Owned w.opened task.opId task.responseTx task.firstAckTx ∧
        ∀ block channel, waitsOn task.pc = some (block, channel) →
          Listens w.acks g'.server task.token channel := by
    obtain ⟨owned, waits⟩ := grounded.writes i task held
    exact ⟨owned, fun block channel at_ =>
      listens_step ran grounded.taken (waits block channel at_)⟩
  by_cases dispatches : act = .dispatch
  · subst dispatches
    cases dispatch_move ran with
    | @block addr op queue path value format front command large =>
      refine ⟨fun i task held => ?_, grounded.answers⟩
      rw [Tasks.get?_spawn] at held
      split at held
      · cases held
        have owned := grounded.queue (addr, op) (by rw [front]; exact List.mem_cons_self)
        exact ⟨owned, fun block channel waits => by cases waits⟩
      · exact kept i task held
    | unsendable front small failed =>
      refine ⟨kept, fun reply member => ?_⟩
      rcases List.mem_cons.mp member with rfl | old
      · exact founded_error
      · exact grounded.answers reply old
    | single => exact ⟨kept, grounded.answers⟩
  · by_cases moves : ∃ i choice, act = .blockWrite i choice
    · obtain ⟨i, choice, rfl⟩ := moves
      obtain ⟨task, held, ran'⟩ := Option.bind_eq_some_iff.mp ran
      obtain ⟨outcome, moved, ran'⟩ := Option.bind_eq_some_iff.mp ran'
      obtain ⟨middle, released, ran'⟩ := Option.bind_eq_some_iff.mp ran'
      obtain ⟨server, called, ran'⟩ := Option.bind_eq_some_iff.mp ran'
      cases ran'
      obtain ⟨armed, transmissions, rfl⟩ := release_fields released
      obtain ⟨owned, waits⟩ := grounded.writes i task held
      have move := task_move moved
      constructor
      · intro j other there
        rw [Tasks.get?_update _ held] at there
        split at there
        · cases there
          refine ⟨move.owned _ owned, fun block channel at_ => ?_⟩
          rw [move.token]
          rcases move.waits block channel at_ with ⟨before, at_⟩ | ⟨arms, rfl⟩
          · exact listens_step ran grounded.taken (waits before channel at_)
          · rw [arms] at called
            have arming : w.gateway.server.step env (.client (.armBlock task.token)) = some server :=
              called
            exact listens_armed grounded.channelled arming
        · exact kept j other there
      · intro reply member
        rcases List.mem_append.mp member with new | old
        · rcases move.fires reply new with ⟨e, failed⟩ | ⟨block, channel, packet, at_, sent, fired⟩
          · intro value same
            rw [failed] at same
            cases same
          · obtain ⟨came, own⟩ := (waits block channel at_).heard packet sent
            exact received_founded came own owned fired
        · exact grounded.answers reply old
    · obtain ⟨same, answers⟩ :=
        writes_kept dispatches (fun i choice equal => moves ⟨i, choice, equal⟩) ran
      rw [same, answers]
      exact ⟨kept, grounded.answers⟩

theorem grounded_step (grounded : Grounded w) (ran : step env w act = some w') : Grounded w' := by
  obtain ⟨next, stepped, rfl⟩ := Option.map_eq_some_iff.mp ran
  obtain ⟨grows, fresh, distinct⟩ := opens_step stepped
  obtain ⟨writes, answers⟩ := writes_step grounded stepped
  have later : ∀ packet ∈ w.acks, packet ∈ arrives act ++ w.acks :=
    fun packet => List.mem_append_right _
  have wide : ∀ entry ∈ w.opened, entry ∈ opens w.gateway act ++ w.opened :=
    fun entry => List.mem_append_right _
  constructor
  · exact tidy_step grounded.tidy stepped
  · exact channelled_kept stepped grounded.channelled
  · intro entry member
    rcases List.mem_append.mp member with new | old
    · exact (fresh entry new).2
    · exact Nat.lt_of_lt_of_le (grounded.below entry old) grows
  · rw [List.map_append]
    refine List.nodup_append.mpr ⟨distinct, grounded.once, fun new isNew old isOld same => ?_⟩
    obtain ⟨opening, among, rfl⟩ := List.mem_map.mp isNew
    obtain ⟨before, amongOld, rfl⟩ := List.mem_map.mp isOld
    have above := (fresh opening among).1
    rw [same] at above
    exact Nat.not_lt.mpr above (grounded.below before amongOld)
  · intro entry member
    rcases queue_step grounded.tidy stepped member with old | owned
    · exact (grounded.queue entry old).mono wide
    · exact owned.mono fun entry => List.mem_append_left _
  · intro place op holds
    rcases flights_step stepped holds with old | ⟨entry, queued, id, channel, first⟩
    · exact (grounded.flights place op old).mono wide
    · rw [id, channel, first]
      exact (grounded.queue entry queued).mono wide
  · intro i task held
    obtain ⟨owned, waits⟩ := writes i task held
    exact ⟨owned.mono wide, fun block channel at_ => (waits block channel at_).mono later⟩
  · exact taken_step grounded.taken stepped
  · exact fun reply member => (replies_founded grounded stepped member).mono later wide
  · exact fun reply member => (answers reply member).mono later wide

private theorem grounded_start (initial : (Gateway.machine env).start g) :
    Grounded { gateway := g } := by
  obtain ⟨seed, serverUri, included, now, snapshots, clock, trafficClass, below, ids, endpoints, rfl⟩ :=
    initial
  obtain ⟨tidy, nothing⟩ := restored_tidy now snapshots
  constructor
  · exact tidy
  · exact ⟨fun token channel held => (by cases held), fun _ _ => rfl⟩
  · exact fun entry none => by cases none
  · exact .nil
  · exact fun entry none => by cases none
  · rintro place op ⟨dev, stored, entry⟩
    have inFlight : op ∈ held (DeviceRegistry.new.restore now snapshots).byId :=
      List.mem_flatMap.mpr ⟨dev, Table.mem_values.mpr ⟨_, stored⟩, Table.mem_values.mpr ⟨_, entry⟩⟩
    rw [nothing] at inFlight
    cases inFlight
  · exact fun i task held => by cases held
  · exact fun packet held => by cases held
  · exact fun reply none => by cases none
  · exact fun reply none => by cases none

/-- **A success is what a device acknowledged**: in every run of the gateway,
however its tasks interleave, each response channel is opened for one operation,
and a success on it is what an acknowledgement of class 2 says that came in under
the token of that operation. -/
theorem success_acknowledged (reached : (machine env).Reaches Machine.always w) :
    (w.opened.map (·.1)).Nodup ∧ ∀ channel value,
      (channel, .ok value) ∈ w.gateway.server.replies ++ w.gateway.answers →
        ∃ id, (channel, id) ∈ w.opened ∧ ∃ packet ∈ w.acks,
          tokenArray packet.token = tokenOfId id ∧ packet.code.isSuccess = true ∧
            Confirms packet value := by
  have grounded : Grounded w := by
    refine reached.invariant Grounded ?_ ?_
    · rintro w ⟨gateway, initial, rfl⟩
      exact grounded_start initial
    · intro w act w' _ before _ ran
      exact grounded_step before ran
  refine ⟨grounded.once, fun channel value fired => ?_⟩
  have founded : Founded w.acks w.opened (channel, .ok value) := by
    rcases List.mem_append.mp fired with reply | answer
    · exact grounded.replies _ reply
    · exact grounded.answers _ answer
  obtain ⟨id, opening, packet, came, own, confirms⟩ := founded value rfl
  exact ⟨id, opening, packet, came, own, confirms.class_two.1, confirms⟩

/-- The mower acknowledges its factory reset. -/
def resetConfirmed : List GatewayAction :=
  Peer.resetInFlight ++ Peer.relay (Peer.ack 0x80000000 (.response .changed)) Peer.addr 5

/-- The reset is reported as done, which the acknowledgement says. -/
theorem reset_confirmed :
    ∃ w, (machine Peer.env).exec Machine.always { gateway := Peer.gateway } resetConfirmed = some w ∧
      (0, .ok (.coapResponse 2 4)) ∈ w.gateway.server.replies ∧
      ∃ id, (0, id) ∈ w.opened ∧ ∃ packet ∈ w.acks, tokenArray packet.token = tokenOfId id ∧
        packet.code.isSuccess = true ∧ Confirms packet (.coapResponse 2 4) := by
  obtain ⟨w, ran, reached, seen⟩ := (machine Peer.env).exec_reaches Machine.always
    { gateway := Peer.gateway } resetConfirmed
    (fun w => w.gateway.server.replies.any fun reply =>
      decide (reply.1 = 0 ∧ reply.2.toOption = some (.coapResponse 2 4)))
    ⟨_, Peer.start_gateway, rfl⟩ (by decide +kernel)
  obtain ⟨⟨channel, result⟩, fired, what⟩ := List.any_eq_true.mp seen
  obtain ⟨first, value⟩ := of_decide_eq_true what
  cases first
  cases result with
  | error => cases value
  | ok =>
    cases value
    exact ⟨w, ran, fired, (success_acknowledged reached).2 _ _ (List.mem_append_left _ fired)⟩

end Lwm2mServer.Successes
