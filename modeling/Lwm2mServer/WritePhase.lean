import Lwm2mServer.Bootstrap
import Lwm2mServer.Json
import Lwm2mServer.Provisioning

/-! The write-phase task: `bootstrap_write_phase` and `send_con_write_step` of
`server.rs`, followed by what the task spawned in `handle_bootstrap` does with
the outcome. A position of the task is a point at which it takes the registry
lock, sends a packet, waits, or returns; one step runs it to the next such
point. -/
namespace Lwm2mServer
open Library

/-- The functions the server calls and this development takes as given: the
crates' decoders and encoders, the certificate check and the key encryption
under the server's own key pair, and the two payload parsers of `server.rs`
whose results only the device registry stores. -/
structure Env where
  /-- `ciborium::from_reader`. -/
  cborDecode : Bytes → Except String Cbor
  /-- `coap_lite::Packet::to_bytes`. -/
  toBytes : Packet → Except String Bytes
  validateDeviceCertificate : Bytes → String → Except Error Unit
  /-- `encrypt_network_key` for a device certificate and 14 random bytes. -/
  encryptNetworkKey : Bytes → Bytes → Except Error Bytes
  serverPubkey : Bytes
  parseLinkFormat : Bytes → List String × Table UInt32 String
  buildDevicePayload : Bytes → Table UInt32 String → Option Json

/-- `parse_device_pubkey` of a payload. -/
def Env.devicePubkey (env : Env) (payload : Bytes) : Except Error Bytes :=
  parseDevicePubkey (env.cborDecode payload)

/-- The check `handle_ack` makes on a certificate payload. -/
def Env.checkPayload (env : Env) (payload : Bytes) (endpoint : String) : Except Error Unit :=
  match env.devicePubkey payload with
  | .ok cert => env.validateDeviceCertificate cert endpoint
  | .error e => .error e

/-- What the history records. Every registry call whose effect or result a
property speaks about leaves one event. -/
inductive Event where
  /-- `load_included` at start-up. -/
  | loaded (endpoints : List String)
  /-- `ensure_includable_id` returned `id`; `fresh` when it assigned it now. -/
  | announced (endpoint : String) (id : UInt32) (fresh : Bool)
  /-- `approve_inclusion(id)` returned the endpoint. -/
  | approved (id : UInt32) (endpoint : String)
  /-- `consume_approval`. -/
  | consumed (endpoint : String)
  /-- `alloc_inner` handed out a token. -/
  | allocated (token : Token)
  /-- `complete` put a payload into the certificate cache. -/
  | cached (endpoint : String) (payload : Bytes)
  /-- The certificate check of `handle_ack` returned. -/
  | verdict (endpoint : String) (payload : Bytes) (accepted : Bool)
  /-- `handle_bootstrap` spawned a write phase. -/
  | started (phase : Nat) (endpoint : String)
  /-- A step of a write phase registered its channel. -/
  | registered (phase : Nat) (step : WriteStep) (token : Token) (channel : Nat)
  /-- A step's request went out. -/
  | sent (phase : Nat) (step : WriteStep) (token : Token)
  /-- `complete_write_ack` fired a channel, for a packet with this code. -/
  | answered (channel : Nat) (token : Token) (success : Bool) (code : MessageClass)
  /-- `encrypt_network_key` was called for a certificate. -/
  | encrypted (phase : Nat) (endpoint : String) (cert : Bytes)
  /-- `bootstrap_write_phase` returned. -/
  | ended (phase : Nat) (endpoint : String) (result : Except Error Unit)
  /-- `mark_included` by a write-phase task. -/
  | recorded (phase : Nat) (endpoint : String)
  /-- `unmark_included` by an IPC exclusion. -/
  | excluded (endpoint : String)
  /-- `handle_registration` found the endpoint not included. -/
  | refused (endpoint : String)
  /-- An operation for a refused device was handed to the dispatch task. -/
  | resetDispatched (endpoint : String) (addr : SocketAddr) (command : LwM2mCommand)
  /-- The delayed removal of a refused device was spawned. -/
  | removalScheduled (endpoint : String) (addr : SocketAddr)
  /-- A `connection_status` event went out. -/
  | connectionStatus (endpoint : String) (online : Bool)
  deriving DecidableEq

/-- `server.rs::MAX_RETRANSMIT`. -/
def maxRetransmit : Nat := 4

/-- Where a write-phase task is. -/
inductive PhasePc where
  /-- About to allocate a token; `security` is the encoded object for PUT /0/1. -/
  | alloc (step : WriteStep) (security : Bytes)
  /-- Step 4, about to read the certificate cache. -/
  | getCert
  /-- Step 4, about to parse the certificate and encrypt the network key. -/
  | encrypt (payload : Bytes)
  | register (step : WriteStep) (token : Token) (packet : Packet)
  | send (step : WriteStep) (token : Token) (channel : Nat) (packet : Packet) (attempt : Nat)
  | wait (step : WriteStep) (token : Token) (channel : Nat) (packet : Packet) (attempt : Nat)
  | cancel (step : WriteStep) (token : Token)
  /-- `bootstrap_write_phase` returned `Ok`; the events come first. -/
  | reportOnline
  /-- About to drop the includable id, after success or failure. -/
  | releaseId (success : Bool)
  | mark
  | finished

/-- A write-phase task with what it was spawned with. -/
structure WritePhase where
  endpoint : String
  addr : SocketAddr
  serverUri : String
  pc : PhasePc

/-- What the environment decides in a step: whether a send succeeds, whether a
timer has run out, and the random bytes drawn. -/
structure Choice where
  sent : Bool := true
  timeout : Bool := false
  random : Bytes := []

/-- The registry and the task after a step, with the events of the step,
newest first. -/
structure PhaseOutcome where
  boot : BootstrapRegistry
  pc : PhasePc
  events : List Event

/-- `bootstrap_write_phase` returns an error: the task goes on to drop the id. -/
def PhaseOutcome.failed (boot : BootstrapRegistry) (phase : Nat) (endpoint : String) (e : Error)
    (events : List Event := []) : PhaseOutcome :=
  ⟨boot, .releaseId false, .ended phase endpoint (.error e) :: events⟩

/-- A step was acknowledged: the next one begins, or the phase returns `Ok`. -/
def PhaseOutcome.advanced (boot : BootstrapRegistry) (phase : Nat) (endpoint : String)
    (step : WriteStep) : PhaseOutcome :=
  match step.following with
  | some .putSecurity => ⟨boot, .getCert, []⟩
  | some next => ⟨boot, .alloc next [], []⟩
  | none => ⟨boot, .reportOnline, [.ended phase endpoint (.ok ())]⟩

/-- One step of the task; `none` while it waits. -/
def WritePhase.step (env : Env) (boot : BootstrapRegistry) (phase : Nat) (task : WritePhase)
    (choice : Choice) : Option PhaseOutcome :=
  match task.pc with
  | .alloc step security =>
    let ((token, mid), boot) := boot.allocTokenMid
    let packet := step.request mid token security
    match env.toBytes packet with
    | .error e => some (.failed boot phase task.endpoint (.coap e) [.allocated token])
    | .ok _ => some ⟨boot, .register step token packet, [.allocated token]⟩
  | .getCert =>
    match boot.getCert task.endpoint with
    | none => some (.failed boot phase task.endpoint (.bootstrap "device pubkey not in cache"))
    | some payload => some ⟨boot, .encrypt payload, []⟩
  | .encrypt payload =>
    match env.devicePubkey payload with
    | .error e => some (.failed boot phase task.endpoint e)
    | .ok cert =>
      match env.encryptNetworkKey cert choice.random with
      | .error e =>
        some (.failed boot phase task.endpoint e [.encrypted phase task.endpoint cert])
      | .ok key =>
        some ⟨boot, .alloc .putSecurity (encodeSecurityObject task.serverUri env.serverPubkey key),
          [.encrypted phase task.endpoint cert]⟩
  | .register step token packet =>
    let (channel, boot) := boot.registerWriteAck token
    some ⟨boot, .send step token channel packet 0, [.registered phase step token channel]⟩
  | .send step token channel packet attempt =>
    if choice.sent then
      some ⟨boot, .wait step token channel packet attempt, [.sent phase step token]⟩
    else some (.failed boot phase task.endpoint (.io "send_to"))
  | .wait step token channel packet attempt =>
    match boot.oneshots.cell channel with
    | .sent true => some (.advanced boot phase task.endpoint step)
    | .sent false | .closed =>
      some (.failed boot phase task.endpoint (.coap "bootstrap write op rejected (RST)"))
    | .waiting =>
      -- the select is biased: the timer counts only while the channel is silent
      if choice.timeout then
        if attempt < maxRetransmit then
          some ⟨boot, .send step token channel packet (attempt + 1), []⟩
        else some ⟨boot, .cancel step token, []⟩
      else none
  | .cancel _ token =>
    some (.failed (boot.cancelWriteAck token) phase task.endpoint
      (.coap "bootstrap write: max retransmits exceeded"))
  | .reportOnline => some ⟨boot, .releaseId true, [.connectionStatus task.endpoint true]⟩
  | .releaseId success =>
    some ⟨boot.removeIncludableId task.endpoint, if success then .mark else .finished, []⟩
  | .mark => some ⟨boot.markIncluded task.endpoint, .finished, [.recorded phase task.endpoint]⟩
  | .finished => none

/-- `bootstrap_write_phase` itself has not returned yet. -/
def PhasePc.Running : PhasePc → Bool
  | .reportOnline | .releaseId _ | .mark | .finished => false
  | _ => true

end Lwm2mServer
