import Lwm2mServer.Library.Machine
import Lwm2mServer.Registry
import Lwm2mServer.WritePhase

/-! The running server: the receive loop of `server.rs` with all its packet
handlers, the write-phase tasks it spawns, the delayed removals, the
housekeeping loop, and the two IPC commands that change inclusion.

Every task moves in atomic steps, one lock acquisition or one send each, and
an action says which task moves. The receive loop is a single task that
handles one packet to its end, so its position is one value and not a table.
The tasks of `client.rs` reach the state modelled here only through a few
calls; these may come at any time with any arguments (`ClientCall`). -/
namespace Lwm2mServer
open Library

/-! ## The receive loop -/

/-- What a handler does once its response is out. -/
inductive AfterResponse where
  | nothing
  /-- `handle_update`, from `renew_registration` on. -/
  | renew (newLifetime : Option UInt32)
  /-- `handle_dp`, from the test for an empty payload on. -/
  | report (payload : Bytes)
  /-- `handle_delete`, from `remove_by_addr` on. -/
  | deregister
  /-- `handle_registration`, from `is_included` on. -/
  | decideInclusion (endpoint : String)

/-- Where the receive loop is. The address is that of the packet being
handled. -/
inductive Recv where
  | idle
  | touch (packet : Packet) (addr : SocketAddr)
  | reportOnline (endpoint : String) (packet : Packet) (addr : SocketAddr)
  | respond (response : Packet) (addr : SocketAddr) (rest : AfterResponse)
  -- `handle_bootstrap`
  | announce (endpoint : String) (packet : Packet) (addr : SocketAddr)
  | askApproved (endpoint : String) (packet : Packet) (addr : SocketAddr)
  | consume (endpoint : String) (packet : Packet) (addr : SocketAddr)
  | acknowledge (endpoint : String) (packet : Packet) (addr : SocketAddr)
  | askCert (endpoint : String) (addr : SocketAddr)
  | begin (endpoint : String) (addr : SocketAddr)
  | sendGet (request : Packet) (addr : SocketAddr)
  -- `handle_registration`
  | register (endpoint : String) (registration : Registration) (packet : Packet) (addr : SocketAddr)
  | askIncluded (endpoint : String) (addr : SocketAddr)
  | dispatchReset (endpoint : String) (addr : SocketAddr)
  | scheduleRemoval (endpoint : String) (addr : SocketAddr)
  -- `handle_update`
  | renew (newLifetime : Option UInt32) (addr : SocketAddr)
  | drain (addr : SocketAddr)
  -- `handle_dp`
  | findReporter (payload : Bytes) (addr : SocketAddr)
  | findVersions (payload : Bytes) (addr : SocketAddr)
  | mergeReport (report : Json) (addr : SocketAddr)
  -- `handle_delete`
  | deregister (addr : SocketAddr)
  -- `handle_ack`
  | ackWrite (packet : Packet) (addr : SocketAddr)
  | ackPending (packet : Packet) (addr : SocketAddr)
  | ackComplete (packet : Packet)
  | ackValidate (endpoint : String) (payload : Bytes)
  | ackReject (endpoint : String)
  | ackBlock (packet : Packet) (addr : SocketAddr)
  | ackInFlight (packet : Packet) (addr : SocketAddr)
  -- the reset branch of `handle_packet`
  | rstPending (packet : Packet) (addr : SocketAddr)
  | rstWrite (packet : Packet) (addr : SocketAddr)
  | rstBlock (packet : Packet) (addr : SocketAddr)
  | rstInFlight (packet : Packet) (addr : SocketAddr)

/-- The parameters `handle_registration` reads, with its defaults. -/
def registrationOf (env : Env) (packet : Packet) : Registration :=
  let params := parseQuery (uriQuery packet)
  let (objects, objectVersions) := env.parseLinkFormat packet.payload
  { lifetime := ((params.lookup "lt").bind parseU32).getD 86400
    objects
    objectVersions
    lwm2mVersion := (params.lookup "lwm2m").getD "1.0"
    bindingMode := (params.lookup "b").getD "" }

/-- `handle_post`, up to the handler's first lock or send. -/
def handlePost (env : Env) (packet : Packet) (addr : SocketAddr) : Recv :=
  let endpoint := endpointOf packet
  match postPath packet with
  | .bootstrap =>
    if endpoint = "" then .respond (makeResponse packet .badRequest) addr .nothing
    else .announce endpoint packet addr
  | .registration =>
    if endpoint = "" then .respond (makeResponse packet .badRequest) addr .nothing
    else .register endpoint (registrationOf env packet) packet addr
  | .update =>
    .respond (makeResponse packet .changed) addr
      (.renew (((parseQuery (uriQuery packet)).lookup "lt").bind parseU32))
  | .data => .respond (makeResponse packet .changed) addr (.report packet.payload)
  | .unknown => .respond (makeResponse packet .notFound) addr .nothing

/-- The match of `handle_packet` on the packet's type and code. -/
def handlePacket (env : Env) (packet : Packet) (addr : SocketAddr) : Recv :=
  match packet.type with
  | .confirmable | .nonConfirmable =>
    match packet.code with
    | .request .post => handlePost env packet addr
    | .request .delete => .respond (makeResponse packet .deleted) addr .deregister
    | _ => .idle
  | .acknowledgement => .ackWrite packet addr
  | .reset => .rstPending packet addr

/-- Where a handler goes on after its response. -/
def AfterResponse.resume (addr : SocketAddr) : AfterResponse → Recv
  | .nothing => .idle
  | .renew newLifetime => .renew newLifetime addr
  | .report payload => if payload = [] then .idle else .findReporter payload addr
  | .deregister => .deregister addr
  | .decideInclusion endpoint => .askIncluded endpoint addr

/-! ## The other tasks -/

/-- Where `handle_exclusion` is; the wait for the device ends whenever the
answer, the timeout or a failed dispatch ends it. -/
inductive ExclusionPc where
  | findAddr
  | waitDevice (addr : SocketAddr)
  | unmark (addr : Option SocketAddr)
  | deregister (addr : Option SocketAddr)
  /-- About to read the included list and the snapshots that are saved. -/
  | persist
  | finished
  deriving DecidableEq

structure Exclusion where
  device : String
  pc : ExclusionPc

/-- The task that `handle_registration` spawns to remove a device it reset. -/
structure Removal where
  endpoint : String
  addr : SocketAddr
  due : Instant
  done : Bool

/-- Where a tick of `housekeeping.rs` is. -/
inductive Housekeeping where
  | expireDevices
  | timeoutOps
  | expireSessions
  | takePings
  deriving DecidableEq

namespace Housekeeping

def graceSecs : UInt32 := 30
def inFlightTimeoutSecs : Nat := 60
def bootstrapTimeoutSecs : Nat := 30
def offlinePingInterval : Nat := fromSecs (15 * 60)
def onlinePingInterval : Nat := fromSecs 9000
def offlinePingMaxDuration : Nat := fromSecs (6 * 60 * 60)

end Housekeeping

/-- The calls by which the dispatch, retransmission and block-write tasks of
`client.rs` change what the server shares with them. -/
inductive ClientCall where
  | placeInFlight (addr : SocketAddr) (token : Token) (op : PendingOperation)
  | completeInFlight (addr : SocketAddr) (token : Token)
  | setDeviceOffline (addr : SocketAddr)
  /-- The event `mark_device_offline` sends for an endpoint it was given. -/
  | reportOffline (endpoint : String)
  | armBlock (token : Token)
  | disarmBlock (token : Token)

/-- The shared state, the position of every task and the history, newest
event first. -/
structure Server where
  boot : BootstrapRegistry
  devices : DeviceRegistry
  blockAcks : Table Token Nat := ∅
  blockChannels : Oneshots Packet := {}
  recv : Recv := .idle
  phases : Tasks WritePhase := {}
  exclusions : Tasks Exclusion := {}
  removals : Tasks Removal := {}
  housekeeping : Housekeeping := .expireDevices
  clock : Instant
  replies : List Reply := []
  log : List Event

/-- One move of one task, or of the environment. -/
inductive Action where
  /-- A datagram arrives; `none` when `Packet::from_bytes` refuses it. -/
  | receive (packet : Option Packet) (addr : SocketAddr)
  | recv (choice : Choice)
  | phase (id : Nat) (choice : Choice)
  /-- IPC `includable_device/<id>/include`. -/
  | includeDevice (id : UInt32)
  /-- IPC `execute device/0/factory_reset` arrives for a device. -/
  | excludeDevice (device : String)
  | exclusion (id : Nat)
  | removal (id : Nat)
  | housekeeping
  | client (call : ClientCall)
  | advance (nanos : Nat)

namespace Server

/-- The delay before a reset device is removed. -/
def removalDelay : Nat := fromSecs 10

/-- `block_acks.lock().await.remove(&token)` with the sender dropped. -/
def disarmBlock (s : Server) (token : Token) : Server :=
  { s with
    blockAcks := s.blockAcks.erase token
    blockChannels := match s.blockAcks.lookup token with
      | some sender => s.blockChannels.drop sender
      | none => s.blockChannels }

/-- `response_tx.send` for an operation just taken out of the in-flight table. -/
def answer (s : Server) (op : Option PendingOperation) (result : LwM2mResult) : Server :=
  match op with
  | some op => { s with replies := (op.responseTx, result) :: s.replies }
  | none => s

/-- A packet is encoded and handed to the socket; both can fail. -/
def sends (env : Env) (packet : Packet) (choice : Choice) : Bool :=
  (env.toBytes packet).toBool && choice.sent

/-- One step of the receive loop. A panic of a registry call leaves no next
state; neither does waiting for a packet. -/
def recvStep (env : Env) (s : Server) (choice : Choice) : Option Server :=
  match s.recv with
  | .idle => none
  | .touch packet addr => do
    let (cameOnline, devices) ← s.devices.touch s.clock addr
    return { s with
      devices
      recv := match cameOnline with
        | some endpoint => .reportOnline endpoint packet addr
        | none => handlePacket env packet addr }
  | .reportOnline endpoint packet addr =>
    some { s with
      recv := handlePacket env packet addr
      log := .connectionStatus endpoint true :: s.log }
  | .respond response addr rest =>
    some { s with recv := if sends env response choice then rest.resume addr else .idle }
  | .announce endpoint packet addr =>
    let (id, boot) := s.boot.ensureIncludableId endpoint
    let fresh := (s.boot.includableIds.lookup endpoint).isNone
    some { s with
      boot
      recv := .askApproved endpoint packet addr
      log := .announced endpoint id fresh :: s.log }
  | .askApproved endpoint packet addr =>
    some { s with
      recv := if s.boot.isApproved endpoint then .consume endpoint packet addr
        else .askCert endpoint addr }
  | .consume endpoint packet addr =>
    some { s with
      boot := s.boot.consumeApproval endpoint
      recv := .acknowledge endpoint packet addr
      log := .consumed endpoint :: s.log }
  | .acknowledge endpoint packet addr =>
    if sends env (makeResponse packet .changed) choice then
      match s.boot.serverUri with
      | none => some { s with recv := .idle }
      | some serverUri =>
        some { s with
          recv := .idle
          phases := s.phases.spawn ⟨endpoint, addr, serverUri, .alloc .deleteServer []⟩
          log := .started s.phases.count endpoint :: s.log }
    else some { s with recv := .idle }
  | .askCert endpoint addr =>
    some { s with recv := if s.boot.hasCert endpoint then .idle else .begin endpoint addr }
  | .begin endpoint addr =>
    match s.boot.begin s.clock endpoint with
    | (none, boot) => some { s with boot, recv := .idle }
    | (some (token, mid), boot) =>
      some { s with
        boot
        recv := .sendGet (buildGet mid (wireToken token)) addr
        log := .allocated token :: s.log }
  | .sendGet _ _ =>
    -- whether the GET goes out decides nothing here: the handler ends either way
    some { s with recv := .idle }
  | .register endpoint registration packet addr => do
    let (id, devices) ← s.devices.register s.clock endpoint addr registration
    let response := { makeResponse packet .created with
      locationPath := ["rd", toString id.toNat] }
    return { s with devices, recv := .respond response addr (.decideInclusion endpoint) }
  | .askIncluded endpoint addr =>
    if s.boot.isIncluded endpoint then some { s with recv := .idle }
    else some { s with recv := .dispatchReset endpoint addr, log := .refused endpoint :: s.log }
  | .dispatchReset endpoint addr =>
    some { s with
      recv := .scheduleRemoval endpoint addr
      log := .resetDispatched endpoint addr (.execute factoryResetPath none) :: s.log }
  | .scheduleRemoval endpoint addr =>
    some { s with
      recv := .idle
      removals := s.removals.spawn ⟨endpoint, addr, s.clock + removalDelay, false⟩
      log := .removalScheduled endpoint addr :: s.log }
  | .renew newLifetime addr =>
    some { s with
      devices := s.devices.renewRegistration s.clock addr newLifetime
      recv := .drain addr }
  | .drain addr => do
    let (_, devices) ← s.devices.drainPending addr
    return { s with devices, recv := .idle }
  | .findReporter payload addr => do
    let endpoint ← s.devices.endpointByAddr addr
    return { s with recv := if endpoint.isSome then .findVersions payload addr else .idle }
  | .findVersions payload addr => do
    let versions ← s.devices.objectVersionsByAddr addr
    return { s with
      recv := match env.buildDevicePayload payload (versions.getD ∅) with
        | some report => .mergeReport report addr
        | none => .idle }
  | .mergeReport report addr => do
    let (_, devices) ← s.devices.mergeDeviceStateByAddr addr report
    return { s with devices, recv := .idle }
  | .deregister addr =>
    let (_, replies, devices) := s.devices.removeByAddr addr
    some { s with devices, recv := .idle, replies := replies ++ s.replies }
  | .ackWrite packet addr =>
    let token := tokenArray packet.token
    match s.boot.completeWriteAck token true with
    | (some channel, boot) =>
      some { s with boot, recv := .idle, log := .answered channel token true packet.code :: s.log }
    | (none, boot) => some { s with boot, recv := .ackPending packet addr }
  | .ackPending packet addr =>
    some { s with
      recv := if s.boot.isPending (tokenArray packet.token) then .ackComplete packet
        else .ackBlock packet addr }
  | .ackComplete packet =>
    match s.boot.complete (tokenArray packet.token) packet.payload with
    | (some session, boot) =>
      some { s with
        boot
        recv := .ackValidate session.endpoint (session.pubkeyPayload.getD [])
        log := .cached session.endpoint packet.payload :: s.log }
    | (none, boot) => some { s with boot, recv := .idle }
  | .ackValidate endpoint payload =>
    match env.checkPayload payload endpoint with
    | .ok () => some { s with recv := .idle, log := .verdict endpoint payload true :: s.log }
    | .error _ =>
      some { s with recv := .ackReject endpoint, log := .verdict endpoint payload false :: s.log }
  | .ackReject endpoint =>
    some { s with boot := s.boot.removeFromCertCache endpoint, recv := .idle }
  | .ackBlock packet addr =>
    match s.blockAcks.lookup (tokenArray packet.token) with
    | some sender =>
      some { s with
        blockAcks := s.blockAcks.erase (tokenArray packet.token)
        blockChannels := s.blockChannels.send sender packet
        recv := .idle }
    | none => some { s with recv := .ackInFlight packet addr }
  | .ackInFlight packet addr =>
    let (op, devices) := s.devices.completeInFlight addr (tokenArray packet.token)
    some ({ s with devices, recv := .idle }.answer op (coapResponseToResult packet))
  | .rstPending packet addr =>
    some { s with
      recv := if s.boot.isPending (tokenArray packet.token) then .idle else .rstWrite packet addr }
  | .rstWrite packet addr =>
    let token := tokenArray packet.token
    match s.boot.completeWriteAck token false with
    | (some channel, boot) =>
      some { s with boot, recv := .idle, log := .answered channel token false packet.code :: s.log }
    | (none, boot) => some { s with boot, recv := .rstBlock packet addr }
  | .rstBlock packet addr =>
    some { s.disarmBlock (tokenArray packet.token) with recv := .rstInFlight packet addr }
  | .rstInFlight packet addr =>
    let (op, devices) := s.devices.completeInFlight addr (tokenArray packet.token)
    some ({ s with devices, recv := .idle }.answer op (.error (.coapError 5 0)))

/-- One step of a write-phase task. -/
def phaseStep (env : Env) (s : Server) (id : Nat) (choice : Choice) : Option Server := do
  let phase ← s.phases.get? id
  let outcome ← phase.step env s.boot id choice
  return { s with
    boot := outcome.boot
    phases := s.phases.update id { phase with pc := outcome.pc }
    log := outcome.events ++ s.log }

/-- `approve_inclusion` by the IPC include command. -/
def includeStep (s : Server) (id : UInt32) : Server :=
  match s.boot.approveInclusion id with
  | (some endpoint, boot) => { s with boot, log := .approved id endpoint :: s.log }
  | (none, boot) => { s with boot }

/-- One step of an exclusion. -/
def exclusionStep (s : Server) (id : Nat) : Option Server := do
  let task ← s.exclusions.get? id
  let goto pc := s.exclusions.update id { task with pc }
  match task.pc with
  | .findAddr =>
    match ← s.devices.addrAndIdByEndpoint task.device with
    | none => return { s with exclusions := goto (.unmark none) }
    | some (addr, _, _) => return { s with exclusions := goto (.waitDevice addr) }
  | .waitDevice addr => return { s with exclusions := goto (.unmark (some addr)) }
  | .unmark addr =>
    return { s with
      boot := s.boot.unmarkIncluded task.device
      exclusions := goto (.deregister addr)
      log := .excluded task.device :: s.log }
  | .deregister none => return { s with exclusions := goto .persist }
  | .deregister (some addr) =>
    let (_, replies, devices) := s.devices.removeByAddr addr
    return { s with devices, exclusions := goto .persist, replies := replies ++ s.replies }
  | .persist => return { s with exclusions := goto .finished }
  | .finished => none

/-- The delayed removal, once its sleep is over. -/
def removalStep (s : Server) (id : Nat) : Option Server := do
  let task ← s.removals.get? id
  if task.done ∨ s.clock < task.due then none
  else
    let (_, replies, devices) := s.devices.removeByAddr task.addr
    return { s with
      devices
      removals := s.removals.update id { task with done := true }
      replies := replies ++ s.replies }

open Housekeeping in
/-- One call of a housekeeping tick. A tick may begin at any time. -/
def housekeepingStep (s : Server) : Server :=
  match s.housekeeping with
  | .expireDevices =>
    let (_, replies, devices) := s.devices.expireStale s.clock graceSecs
    { s with devices, housekeeping := .timeoutOps, replies := replies ++ s.replies }
  | .timeoutOps =>
    let (replies, devices) := s.devices.timeoutInFlight s.clock inFlightTimeoutSecs
    { s with devices, housekeeping := .expireSessions, replies := replies ++ s.replies }
  | .expireSessions =>
    { s with
      boot := s.boot.expireStale s.clock bootstrapTimeoutSecs
      housekeeping := .takePings }
  | .takePings =>
    let (_, devices) := s.devices.takePingCandidates s.clock offlinePingInterval
      onlinePingInterval offlinePingMaxDuration
    { s with devices, housekeeping := .expireDevices }

/-- One call from `client.rs`. -/
def clientStep (s : Server) : ClientCall → Server
  | .placeInFlight addr token op => { s with devices := s.devices.placeInFlight addr token op }
  | .completeInFlight addr token =>
    let (op, devices) := s.devices.completeInFlight addr token
    { s with devices }.answer op (.error .timeout)
  | .setDeviceOffline addr => { s with devices := (s.devices.setDeviceOffline s.clock addr).2 }
  | .reportOffline endpoint => { s with log := .connectionStatus endpoint false :: s.log }
  | .armBlock token =>
    -- inserting over an older sender drops that one
    let (sender, blockChannels) := (s.disarmBlock token).blockChannels.channel
    { s with blockAcks := s.blockAcks.insert token sender, blockChannels }
  | .disarmBlock token => s.disarmBlock token

/-- The state after an action; `none` when the action cannot happen now. -/
def step (env : Env) (s : Server) : Action → Option Server
  | .receive packet addr =>
    match s.recv, packet with
    | .idle, some packet => some { s with recv := .touch packet addr }
    | .idle, none => some s
    | _, _ => none
  | .recv choice => s.recvStep env choice
  | .phase id choice => s.phaseStep env id choice
  | .includeDevice id => some (s.includeStep id)
  | .excludeDevice device => some { s with exclusions := s.exclusions.spawn ⟨device, .findAddr⟩ }
  | .exclusion id => s.exclusionStep id
  | .removal id => s.removalStep id
  | .housekeeping => some s.housekeepingStep
  | .client call => some (s.clientStep call)
  | .advance nanos => some { s with clock := s.clock + nanos }

/-- The server as `main` starts it, from the persisted included list and
whatever `restore` made of the persisted devices. -/
def initial (seed : UInt32) (serverUri : Option String) (included : List String)
    (devices : DeviceRegistry) (clock : Instant) : Server where
  boot := (BootstrapRegistry.new seed serverUri).loadIncluded included
  devices := devices
  clock := clock
  log := [.loaded included]

end Server

/-- Every interleaving of the server's tasks with its environment. -/
def serverMachine (env : Env) : Machine Server Action where
  start s := ∃ seed serverUri included devices clock,
    s = Server.initial seed serverUri included devices clock
  step := Server.step env

/-! ## The device's side

The packets of a device that is being included, and an environment to run the
server in. Certificates are stood in for by their first bytes: the genuine one
passes the check for every endpoint, the forged one for none, and both can be
encrypted to. -/

namespace Peer

def addr : SocketAddr := .v6 0xfc000006010000000000000000000001 5683 0 0

def genuine : Bytes := [0x30, 0x82, 0x01]
def forged : Bytes := [0x30, 0x82, 0x02]

/-- The answer to GET /0/0: one SenML record `{0: "3", 8: h'..'}`. -/
def certPayload (cert : Bytes) : Bytes := [0x81, 0xA2, 0x00, 0x61, 0x33, 0x08, 0x43] ++ cert

def env : Env where
  cborDecode payload := match payload with
    | [0x81, 0xA2, 0x00, 0x61, 0x33, 0x08, 0x43, a, b, c] =>
      .ok (.array [.map [(.integer 0, .text "3"), (.integer 8, .bytes [a, b, c])]])
    | _ => .error "Syntax(0)"
  toBytes packet := .ok packet.payload
  validateDeviceCertificate cert _ :=
    if cert = genuine then .ok () else .error (.bootstrap "certificate signature invalid")
  encryptNetworkKey _ random := .ok (random ++ List.replicate 18 0)
  serverPubkey := [0x04]
  parseLinkFormat _ := ([], ∅)
  buildDevicePayload _ _ := none

/-- POST /bs or /rd for an endpoint. -/
def post (path : String) (endpoint : String) : Packet :=
  { type := .confirmable, code := .request .post, messageId := 1, token := [1]
    uriPath := [path], uriQuery := ["ep=" ++ endpoint] }

/-- The acknowledgement of the request whose token was made from a counter value. -/
def ack (id : UInt32) (code : MessageClass) (payload : Bytes := []) : Packet :=
  { type := .acknowledgement, code, messageId := 1, token := wireToken (tokenOfId id), payload }

/-- A packet arrives and the receive loop takes some steps with it. -/
def deliver (packet : Packet) (steps : Nat) : List Action :=
  .receive (some packet) addr :: List.replicate steps (.recv {})

/-- A write phase takes some steps with nothing going wrong. -/
def advance (phase steps : Nat) : List Action := List.replicate steps (.phase phase {})

/-- Two rounds of POST /bs with the certificate exchange and an approval in
between, up to the start of write phase 0. The first token allocated is made
from `0x80000000`. -/
def approach (endpoint : String) (cert : Bytes) : List Action :=
  deliver (post "bs" endpoint) 6 ++
    deliver (ack 0x80000000 (.response .content) (certPayload cert)) 5 ++
    .includeDevice 1 :: deliver (post "bs" endpoint) 5

/-- The five steps of write phase 0, every request answered with the same code. -/
def provision (code : MessageClass) : List Action :=
  advance 0 3 ++ deliver (ack 0x80000001 code) 2 ++ advance 0 4 ++
    deliver (ack 0x80000002 code) 2 ++ advance 0 4 ++
    deliver (ack 0x80000003 code) 2 ++ advance 0 6 ++
    deliver (ack 0x80000004 code) 2 ++ advance 0 4 ++
    deliver (ack 0x80000005 code) 2 ++ advance 0 1

/-- The server with nothing persisted. -/
def server : Server := .initial 0 (some "coaps://gateway") [] .new 0

end Peer

/-- A whole inclusion, from the first POST /bs to `mark_included`. -/
example : (((serverMachine Peer.env).exec Machine.always Peer.server
    (Peer.approach "mower" Peer.genuine ++ Peer.provision (.response .changed) ++
      Peer.advance 0 3)).any fun s => decide ("mower" ∈ s.boot.included)) = true := by decide +kernel

end Lwm2mServer
