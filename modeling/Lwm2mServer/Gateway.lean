import Lwm2mServer.Client
import Lwm2mServer.DeviceSteps

/-! The gateway: the server together with the tasks of `client.rs`, the
sources of operations with their id counters, and the one UDP socket all of
them send on. An operation comes from an IPC command, from a registration
that is refused or from a ping of the housekeeping loop; it waits in the
channel to the dispatch task. Before a send, every sender sets the traffic
class of the socket in a step of its own. Each step of the gateway makes at
most one step of the server, so that what holds in every run of the server
holds here. -/
namespace Lwm2mServer
open Library

/-- IPv6 traffic classes: without and with MAC-layer encryption. -/
def tcPlain : UInt32 := 0x0c
def tcEncrypted : UInt32 := 0x1c

/-- The functions that set the traffic class and send. -/
inductive SendCall where
  | sendBootstrapPacket
  | sendEncryptedPacket
  | dispatchOp
  | dispatchBlockWrite
  deriving DecidableEq

/-- The class a function sets. -/
def SendCall.trafficClass : SendCall → UInt32
  | .sendBootstrapPacket => tcPlain
  | .sendEncryptedPacket | .dispatchOp | .dispatchBlockWrite => tcEncrypted

/-- The tasks that send. -/
inductive Sender where
  | recv
  | phase (id : Nat)
  | retransmission (id : Nat)
  | blockWrite (id : Nat)
  deriving DecidableEq

structure Gateway where
  server : Server
  /-- The datagram the receive loop took last, with its source. -/
  handled : Option (Packet × SocketAddr) := none
  nextOpId : UInt32 := 1
  internalOpId : UInt32 := 0x80000000
  nextPingOpId : UInt32 := 0x80000000
  /-- How many response channels were opened. -/
  channels : Nat := 0
  /-- The candidates a housekeeping tick has still to ping. -/
  pings : List SocketAddr := []
  /-- The channel to the dispatch task, by single operations. -/
  queue : List (SocketAddr × PendingOperation) := []
  midCounter : UInt16 := 1
  retransmissions : Tasks Retransmission := {}
  blockWrites : Tasks BlockWrite := {}
  /-- The response channels the tasks of `client.rs` fired themselves. -/
  answers : List Reply := []
  trafficClass : UInt32
  /-- The senders between setting the class and sending. -/
  armed : List (Sender × SendCall) := []
  /-- What was sent, and the class it left with. -/
  transmissions : List (SendCall × UInt32) := []
  /-- The address each GET /0/0 was sent to. -/
  asked : Table Token SocketAddr := ∅

inductive GatewayAction where
  | setClass (sender : Sender) (success : Bool)
  /-- A step of the server, but for the calls its clients make. -/
  | server (action : Action)
  /-- The housekeeping loop goes on to its next ping. -/
  | ping
  /-- An IPC command, `handle_exclusion` included, hands an operation over; a
  firmware upload also waits for its first acknowledgement. -/
  | request (addr : SocketAddr) (command : LwM2mCommand) (firstAck : Bool)
  | dispatch
  | retransmit (id : Nat) (choice : Choice)
  | blockWrite (id : Nat) (choice : Choice)

namespace Gateway

/-- The receive loop handles POST /bs, whose answers are not encrypted. -/
def handlesBootstrap (g : Gateway) : Bool :=
  g.handled.any fun datagram =>
    decide (datagram.1.code = .request .post) && decide (postPath datagram.1 = .bootstrap)

/-- The send function a task is in; a packet that cannot be encoded is not
sent. -/
def sending (env : Env) (g : Gateway) : Sender → Option SendCall
  | .recv =>
    match g.server.recv with
    | .respond response _ _ =>
      if (env.toBytes response).toBool then
        some (if g.handlesBootstrap then .sendBootstrapPacket else .sendEncryptedPacket)
      else none
    | .acknowledge _ packet _ =>
      if (env.toBytes (makeResponse packet .changed)).toBool then some .sendBootstrapPacket else none
    | .sendGet request _ =>
      if (env.toBytes request).toBool then some .sendBootstrapPacket else none
    | _ => none
  | .phase i => (g.server.phases.get? i).bind fun task =>
    match task.pc with
    | .send .. => some .sendBootstrapPacket
    | _ => none
  | .retransmission i => (g.retransmissions.get? i).bind fun task =>
    if task.pc = .send then some .dispatchOp else none
  | .blockWrite i => (g.blockWrites.get? i).bind fun task =>
    match task.pc with
    | .send .. => some .dispatchBlockWrite
    | _ => none

/-- A task moves on. If it is in a send function, this is the send, and the
class was set before. -/
def release (env : Env) (g : Gateway) (sender : Sender) (sent : Bool) : Option Gateway :=
  match g.sending env sender with
  | none => some g
  | some call =>
    if (sender, call) ∈ g.armed then
      some { g with
        armed := g.armed.filter (·.1 ≠ sender)
        transmissions := if sent then (call, g.trafficClass) :: g.transmissions else g.transmissions }
    else none

/-- `dispatch_tx.send` of a new operation. -/
def enqueue (g : Gateway) (addr : SocketAddr) (id : UInt32) (command : LwM2mCommand) : Gateway :=
  { g with
    channels := g.channels + 1
    queue := g.queue ++ [(addr, .new id command g.channels g.server.clock)] }

/-- What a step of the receive loop does beyond the server's own state. -/
def afterRecv (g : Gateway) : Gateway :=
  match g.server.recv with
  | .dispatchReset _ addr =>
    { g.enqueue addr g.internalOpId (.execute factoryResetPath none) with
      internalOpId := g.internalOpId + 1 }
  | .drain addr =>
    let ops := ((g.server.devices.drainPending addr).map (·.1)).getD []
    { g with queue := g.queue ++ ops.map fun op => (addr, op) }
  | .begin endpoint addr =>
    match (g.server.boot.begin g.server.clock endpoint).1 with
    | some (token, _) => { g with asked := g.asked.insert token addr }
    | none => g
  | _ => g

/-- The addresses a housekeeping step takes for pinging. -/
def takenPings (s : Server) : List SocketAddr :=
  match s.housekeeping with
  | .takePings => (s.devices.takePingCandidates s.clock Housekeeping.offlinePingInterval
      Housekeeping.onlinePingInterval Housekeeping.offlinePingMaxDuration).1.map (·.2)
  | _ => []

/-- A step of the server seen by the rest of the gateway. -/
def serverStep (env : Env) (g : Gateway) (action : Action) : Option Gateway := do
  let server ← g.server.step env action
  match action with
  | .client _ => none
  | .receive packet addr =>
    return { g with server, handled := (packet.map fun packet => (packet, addr)).or g.handled }
  | .recv choice => return { (← g.release env .recv choice.sent).afterRecv with server }
  | .phase i choice => return { ← g.release env (.phase i) choice.sent with server }
  | .housekeeping =>
    -- a tick is not over before its last ping is handed over
    if g.pings = [] then return { g with server, pings := takenPings g.server } else none
  | _ => return { g with server }

/-- `dispatch_op` for the next operation in the channel. -/
def dispatchStep (env : Env) (g : Gateway) : Option Gateway :=
  match g.queue with
  | [] => none
  | (addr, op) :: queue =>
    match op.command with
    | .write path value contentFormat =>
      if Client.blockThreshold < value.length then
        let blocks := (value.length + Client.blockThreshold - 1) / Client.blockThreshold
        some { g with
          queue
          midCounter := Client.skipMids g.midCounter blocks
          blockWrites := g.blockWrites.spawn
            { addr, opId := op.id, path, payload := value, contentFormat
              responseTx := op.responseTx, firstAckTx := op.firstAckTx
              szx := Client.blockSzx, mid := g.midCounter, offset := 0, pc := .next } }
      else single addr op queue
    | _ => single addr op queue
where
  /-- The operation goes out as one request. -/
  single (addr : SocketAddr) (op : PendingOperation) (queue : List (SocketAddr × PendingOperation)) :
      Option Gateway := do
    let token := tokenOfId op.id
    let packet := Client.buildRequest op.command token g.midCounter
    let g := { g with queue, midCounter := Client.skipMids g.midCounter 1 }
    match env.toBytes packet with
    | .error _ => return { g with answers := (op.responseTx, .error .badRequest) :: g.answers }
    | .ok _ =>
      let server ← g.server.step env
        (.client (.placeInFlight addr token { op with attempts := op.attempts + 1 }))
      return { g with
        server
        retransmissions := g.retransmissions.spawn ⟨addr, token, packet, 0, .send⟩ }

/-- The call a task of `client.rs` made. -/
def call (env : Env) (s : Server) : Option ClientCall → Option Server
  | none => some s
  | some call => s.step env (.client call)

def step (env : Env) (g : Gateway) : GatewayAction → Option Gateway
  | .setClass sender success => do
    let call ← g.sending env sender
    if g.armed.any (·.1 = sender) then none
    else return { g with
      trafficClass := if success then call.trafficClass else g.trafficClass
      armed := (sender, call) :: g.armed }
  | .server action => g.serverStep env action
  | .ping =>
    match g.pings with
    | [] => none
    | addr :: pings =>
      some { g.enqueue addr g.nextPingOpId (.execute pingPath none) with
        pings, nextPingOpId := g.nextPingOpId + 1 }
  | .request addr command firstAck =>
    let op := PendingOperation.new g.nextOpId command g.channels g.server.clock
    some { g with
      nextOpId := g.nextOpId + 1
      channels := g.channels + 2
      queue := g.queue ++
        [(addr, { op with firstAckTx := if firstAck then some (g.channels + 1) else none })] }
  | .dispatch => g.dispatchStep env
  | .retransmit i choice => do
    let task ← g.retransmissions.get? i
    let outcome ← task.step g.server choice
    let g ← g.release env (.retransmission i) choice.sent
    return { g with
      server := ← call env g.server outcome.call
      retransmissions := g.retransmissions.update i outcome.task }
  | .blockWrite i choice => do
    let task ← g.blockWrites.get? i
    let outcome ← task.step env g.server choice
    let g ← g.release env (.blockWrite i) choice.sent
    return { g with
      server := ← call env g.server outcome.call
      blockWrites := g.blockWrites.update i outcome.task
      answers := outcome.answers ++ g.answers }

/-- The gateway as `main` starts it. The clock gives less than a second of
nanoseconds as seed; the persisted devices have distinct ids and endpoints. -/
def machine (env : Env) : Machine Gateway GatewayAction where
  start g := ∃ seed serverUri included now snapshots clock trafficClass,
    seed.toNat < 1000000000 ∧
      (snapshots.map (·.id)).Nodup ∧ (snapshots.map (·.endpoint)).Nodup ∧
      g = { server := Server.initial seed serverUri included
              (DeviceRegistry.new.restore now snapshots) clock
            trafficClass }
  step := step env

end Gateway

namespace Peer

/-- The gateway with nothing persisted. -/
def gateway : Gateway := { server, trafficClass := 0 }

theorem start_gateway : (Gateway.machine env).start gateway :=
  ⟨0, some "coaps://gateway", [], 0, [], 0, 0, by decide, by simp, by simp, rfl⟩

/-- A packet arrives and the receive loop takes some steps with it. -/
def relay (packet : Packet) (from_ : SocketAddr) (steps : Nat) : List GatewayAction :=
  .server (.receive (some packet) from_) :: List.replicate steps (.server (.recv {}))

/-- A device that is not included registers; the factory reset it is sent is
in flight. -/
def resetInFlight : List GatewayAction :=
  relay (post "rd" "mower") addr 2 ++ .setClass .recv true :: List.replicate 4 (.server (.recv {})) ++
    [.dispatch]

end Peer
end Lwm2mServer
