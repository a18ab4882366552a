import Lwm2mServer.Server

/-! `client.rs`: requests to devices. The dispatch task turns an operation
into a request; a small one is put in flight and handed to a retransmission
task, a large write to a task that sends it block by block. Both kinds of
task reach the server only through the calls of `ClientCall`, one a step, and
wait for what the receive loop does with the answers. Sleeps and timeouts end
whenever the environment says so. -/
namespace Lwm2mServer
open Library

namespace Client

/-- `client.rs::MAX_RETRANSMIT`. -/
def maxRetransmit : Nat := 3

def blockSzx : UInt8 := 5

/-- `1 << (szx + 4)`. -/
def blockSize (szx : UInt8) : Nat := 2 ^ (szx.toNat + 4)

def blockThreshold : Nat := blockSize blockSzx

/-- The next message id after `taken` of them: the counter wraps and skips zero. -/
def skipMids (mid : UInt16) (taken : Nat) : UInt16 := max (mid + UInt16.ofNat taken) 1

/-- `ResourcePath::as_uri_path`, by segments. -/
def uriPath (path : ResourcePath) : List String :=
  [toString path.objectId.toNat, toString path.instanceId.toNat, toString path.resourceId.toNat]

/-- `build_request`. -/
def buildRequest (command : LwM2mCommand) (token : Token) (mid : UInt16) : Packet :=
  match command with
  | .read path =>
    { type := .confirmable, code := .request .get, messageId := mid, token := token.toList
      uriPath := uriPath path }
  | .write path value contentFormat =>
    { type := .confirmable, code := .request .put, messageId := mid, token := token.toList
      uriPath := uriPath path, contentFormat := some (encodeContentFormat contentFormat)
      payload := value }
  | .execute path args =>
    { type := .confirmable, code := .request .post, messageId := mid, token := token.toList
      uriPath := uriPath path, payload := args.getD [] }

/-- `encode_block1`: the shortest big-endian form, at most three bytes. -/
def encodeBlock1 (num : Nat) (more : Bool) (szx : UInt8) : Bytes :=
  let value := num <<< 4 ||| more.toNat <<< 3 ||| szx.toNat
  if value ≤ 0xFF then [UInt8.ofNat value]
  else if value ≤ 0xFFFF then [UInt8.ofNat (value >>> 8), UInt8.ofNat value]
  else [UInt8.ofNat (value >>> 16), UInt8.ofNat (value >>> 8), UInt8.ofNat value]

/-- `block1_szx_from_response`: the bytes are folded into 64 bits, of which
the low three are kept. -/
def block1SzxFromResponse (packet : Packet) : Option UInt8 :=
  packet.block1.map fun bytes =>
    (bytes.foldl (fun (acc : UInt64) byte => (acc <<< 8) ||| byte.toUInt64) 0).toUInt8 &&& 7

/-- `build_block_put`, before it is encoded. -/
def buildBlockPut (path : ResourcePath) (token : Token) (mid : UInt16) (chunk : Bytes)
    (contentFormat : UInt16) (block1 : Bytes) : Packet :=
  { type := .confirmable, code := .request .put, messageId := mid, token := token.toList
    uriPath := uriPath path, contentFormat := some (encodeContentFormat contentFormat)
    block1 := some block1, payload := chunk }

end Client

/-- A task after a step: the call it made and the response channels it fired. -/
structure ClientOutcome (τ : Type) where
  task : τ
  call : Option ClientCall := none
  answers : List Reply := []

/-! ## The retransmission task -/

/-- Where the task spawned by `dispatch_op` is. -/
inductive RetransmitPc where
  | send
  /-- Sent, asleep; then about to look whether the operation is still in flight. -/
  | check
  | giveUp
  | markOffline
  /-- `mark_device_offline` was given an endpoint to report. -/
  | report (endpoint : String)
  | ended
  deriving DecidableEq

structure Retransmission where
  addr : SocketAddr
  token : Token
  packet : Packet
  attempts : Nat
  pc : RetransmitPc

def Retransmission.step (s : Server) (task : Retransmission) (choice : Choice) :
    Option (ClientOutcome Retransmission) :=
  match task.pc with
  | .send => some ⟨{ task with pc := if choice.sent then .check else .markOffline }, none, []⟩
  | .check => do
    if !(← s.devices.isInFlight task.addr task.token) then return ⟨{ task with pc := .ended }, none, []⟩
    let attempts := task.attempts + 1
    return ⟨{ task with
      attempts
      pc := if Client.maxRetransmit ≤ attempts then .giveUp else .send }, none, []⟩
  | .giveUp =>
    some ⟨{ task with pc := .markOffline }, some (.completeInFlight task.addr task.token), []⟩
  | .markOffline =>
    some ⟨{ task with
      pc := match (s.devices.setDeviceOffline s.clock task.addr).1 with
        | some endpoint => .report endpoint
        | none => .ended }, some (.setDeviceOffline task.addr), []⟩
  | .report endpoint => some ⟨{ task with pc := .ended }, some (.reportOffline endpoint), []⟩
  | .ended => none

/-! ## The block-write task -/

/-- The block being sent: the request, the offset behind it, whether more
follow, and how often it was sent again. -/
structure Block where
  packet : Packet
  stop : Nat
  more : Bool
  retransmits : Nat

/-- Where `dispatch_block_write` is. -/
inductive BlockPc where
  /-- At the head of the loop over the payload. -/
  | next
  /-- About to put a channel into the map of block acknowledgements. -/
  | arm (block : Block)
  | send (block : Block) (channel : Nat)
  | wait (block : Block) (channel : Nat)
  /-- About to take the channel out again, after a failed send or a timeout. -/
  | disarm (block : Block) (timedOut : Bool)
  | markOffline
  | report (endpoint : String)
  | ended

structure BlockWrite where
  addr : SocketAddr
  opId : UInt32
  path : ResourcePath
  payload : Bytes
  contentFormat : UInt16
  responseTx : Nat
  firstAckTx : Option Nat
  szx : UInt8
  mid : UInt16
  offset : Nat
  pc : BlockPc

namespace BlockWrite

def token (task : BlockWrite) : Token := tokenOfId task.opId

/-- The task fires its response channel and goes on, or ends, at `pc`. -/
def answered (task : BlockWrite) (result : LwM2mResult) (pc : BlockPc) : ClientOutcome BlockWrite :=
  ⟨{ task with pc }, none, [(task.responseTx, result)]⟩

/-- The answer to a block arrived. -/
def received (task : BlockWrite) (block : Block) (packet : Packet) : ClientOutcome BlockWrite :=
  match packet.code with
  | .response .continue =>
    if !block.more then task.answered (.error (.coapError 5 0)) .ended
    else
      let szx := (Client.block1SzxFromResponse packet).getD task.szx
      ⟨{ task with
        firstAckTx := none
        szx := if szx < task.szx then szx else task.szx
        offset := block.stop
        pc := .next }, none,
        (task.firstAckTx.map fun tx => (tx, .ok (.coapResponse 2 31))).toList⟩
  | .response status =>
    let (class_, detail) := responseTypeToClassDetail status
    task.answered
      (if class_ = 2 then .ok (.coapResponse class_ detail) else .error (.coapError class_ detail))
      .ended
  | _ => task.answered (.error (.coapError 5 0)) .ended

def step (env : Env) (s : Server) (task : BlockWrite) (choice : Choice) :
    Option (ClientOutcome BlockWrite) :=
  match task.pc with
  | .next =>
    if task.offset < task.payload.length then
      let size := Client.blockSize task.szx
      let stop := min (task.offset + size) task.payload.length
      let more := decide (stop < task.payload.length)
      let packet := Client.buildBlockPut task.path task.token task.mid
        ((task.payload.drop task.offset).take (stop - task.offset)) task.contentFormat
        (Client.encodeBlock1 (task.offset / size) more task.szx)
      match env.toBytes packet with
      | .error _ => some (task.answered (.error .badRequest) .ended)
      | .ok _ =>
        some ⟨{ task with
          mid := Client.skipMids task.mid 1
          pc := .arm ⟨packet, stop, more, 0⟩ }, none, []⟩
    else some ⟨{ task with pc := .ended }, none, []⟩
  | .arm block =>
    some ⟨{ task with pc := .send block s.blockChannels.next }, some (.armBlock task.token), []⟩
  | .send block channel =>
    some ⟨{ task with pc := if choice.sent then .wait block channel else .disarm block false }, none, []⟩
  | .wait block channel =>
    match s.blockChannels.cell channel with
    | .sent packet => some (task.received block packet)
    | .closed => some (task.answered (.error (.coapError 5 0)) .ended)
    | .waiting => if choice.timeout then some ⟨{ task with pc := .disarm block true }, none, []⟩ else none
  | .disarm block timedOut =>
    let retransmits := block.retransmits + 1
    if timedOut ∧ retransmits < Client.maxRetransmit then
      some ⟨{ task with pc := .arm { block with retransmits } }, some (.disarmBlock task.token), []⟩
    else
      some { task.answered (.error .timeout) .markOffline with call := some (.disarmBlock task.token) }
  | .markOffline =>
    some ⟨{ task with
      pc := match (s.devices.setDeviceOffline s.clock task.addr).1 with
        | some endpoint => .report endpoint
        | none => .ended }, some (.setDeviceOffline task.addr), []⟩
  | .report endpoint => some ⟨{ task with pc := .ended }, some (.reportOffline endpoint), []⟩
  | .ended => none

end BlockWrite
end Lwm2mServer
