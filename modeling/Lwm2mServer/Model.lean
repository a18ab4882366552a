import Lwm2mServer.Library.Table
import Lwm2mServer.Library.Tasks
import Mathlib.Algebra.Group.Nat.Defs
import Mathlib.Data.Nat.Basic

/-! The data the server works on, after `model.rs`, `error.rs` and the CoAP
packet type of `coap-lite` as the handlers read it. Times are nanoseconds of
the monotonic clock; text options are kept as the text the handlers decode
them to. -/
namespace Lwm2mServer
open Library

abbrev Bytes := List UInt8

/-- `std::time::Instant`, in nanoseconds since the clock's origin. -/
abbrev Instant := Nat

/-- `since.elapsed()` read at `now`; it saturates at zero. -/
def elapsed (now since : Instant) : Nat := now - since

/-- `since.elapsed().as_secs()` read at `now`. -/
def elapsedSecs (now since : Instant) : Nat := elapsed now since / 1000000000

/-- `Duration::from_secs`. -/
def fromSecs (secs : Nat) : Nat := secs * 1000000000

/-- `std::net::SocketAddr`. Equality is on every component, the scope of a
link-local address included. -/
inductive SocketAddr where
  | v4 (ip : UInt32) (port : UInt16)
  | v6 (ip : BitVec 128) (port : UInt16) (flowinfo scopeId : UInt32)
  deriving DecidableEq, Repr

/-- `error.rs::Error`. -/
inductive Error where
  | io (message : String)
  | coap (message : String)
  | json (message : String)
  | config (message : String)
  | bootstrap (message : String)
  deriving DecidableEq, Repr

/-! ## Tokens -/

/-- A CoAP token padded to eight bytes, the key of every token map. -/
abbrev Token := Vector UInt8 8

/-- `id.to_le_bytes()` in the first four bytes, zeros after: the tokens the
server allocates itself. -/
def tokenOfId (id : UInt32) : Token :=
  #v[id.toUInt8, (id >>> 8).toUInt8, (id >>> 16).toUInt8, (id >>> 24).toUInt8, 0, 0, 0, 0]

/-- `server.rs::token_array`: at most eight bytes are kept, short tokens are
padded with zeros. -/
def tokenArray (token : Bytes) : Token :=
  Vector.ofFn fun index : Fin 8 => (token[index.val]?).getD 0

/-- Different counters give different tokens. -/
theorem tokenOfId_injective : Function.Injective tokenOfId := by
  intro first second same
  have b0 : first.toUInt8 = second.toUInt8 := congrArg (fun token : Token => token[0]) same
  have b1 : (first >>> 8).toUInt8 = (second >>> 8).toUInt8 :=
    congrArg (fun token : Token => token[1]) same
  have b2 : (first >>> 16).toUInt8 = (second >>> 16).toUInt8 :=
    congrArg (fun token : Token => token[2]) same
  have b3 : (first >>> 24).toUInt8 = (second >>> 24).toUInt8 :=
    congrArg (fun token : Token => token[3]) same
  simp only [← UInt8.toNat_inj, UInt32.toNat_toUInt8, UInt32.toNat_shiftRight,
    Nat.shiftRight_eq_div_pow, UInt32.reduceToNat, Nat.reduceMod, Nat.reducePow] at b0 b1 b2 b3
  have below := first.toNat_lt
  have below' := second.toNat_lt
  apply UInt32.toNat_inj.mp
  omega

/-! ## CoAP packets -/

inductive MessageType where
  | confirmable | nonConfirmable | acknowledgement | reset
  deriving DecidableEq, Repr

/-- `coap_lite::RequestType`. -/
inductive Method where
  | get | post | put | delete | fetch | patch | iPatch | unKnown
  deriving DecidableEq, Repr

/-- `coap_lite::ResponseType`. -/
inductive Status where
  | created | deleted | valid | changed | content | continue
  | badRequest | unauthorized | badOption | forbidden | notFound | methodNotAllowed
  | notAcceptable | requestEntityIncomplete | conflict | preconditionFailed
  | requestEntityTooLarge | unsupportedContentFormat | unprocessableEntity | tooManyRequests
  | internalServerError | notImplemented | badGateway | serviceUnavailable | gatewayTimeout
  | proxyingNotSupported | hopLimitReached | unKnown
  deriving DecidableEq, Repr

/-- `coap_lite::MessageClass`; a code byte the crate has no name for is kept
as `reserved`. -/
inductive MessageClass where
  | empty
  | request (method : Method)
  | response (status : Status)
  | reserved (code : UInt8)
  deriving DecidableEq, Repr

/-- The codes of class 2, whether or not the crate names them. -/
def MessageClass.isSuccess : MessageClass → Bool
  | .response .created | .response .deleted | .response .valid | .response .changed
  | .response .content | .response .continue => true
  | .reserved code => code >>> 5 == 2
  | _ => false

/-- The parts of `coap_lite::Packet` the server reads or writes. Uri-Path and
Uri-Query hold the text `String::from_utf8_lossy` gives for each option; of
Block1 only the first option is read. -/
structure Packet where
  type : MessageType
  code : MessageClass
  messageId : UInt16
  token : Bytes
  uriPath : List String := []
  uriQuery : List String := []
  locationPath : List String := []
  contentFormat : Option Bytes := none
  block1 : Option Bytes := none
  payload : Bytes := []
  deriving DecidableEq, Repr

/-! ## Device operations -/

structure ResourcePath where
  objectId : UInt16
  instanceId : UInt16
  resourceId : UInt16
  deriving DecidableEq, Repr

inductive LwM2mCommand where
  | read (path : ResourcePath)
  | write (path : ResourcePath) (value : Bytes) (contentFormat : UInt16)
  | execute (path : ResourcePath) (args : Option Bytes)
  deriving DecidableEq, Repr

inductive ResourceValue where
  | text (value : String)
  | coapResponse (class_ detail : UInt8)
  deriving DecidableEq, Repr

inductive LwM2mError where
  | notFound
  | badRequest
  | timeout
  | coapError (class_ detail : UInt8)
  deriving DecidableEq, Repr

abbrev LwM2mResult := Except LwM2mError ResourceValue

/-- `model.rs::PendingOperation`; the two senders are channel identities. -/
structure PendingOperation where
  id : UInt32
  command : LwM2mCommand
  responseTx : Nat
  firstAckTx : Option Nat
  createdAt : Instant
  attempts : UInt8
  deriving DecidableEq, Repr

def PendingOperation.new (id : UInt32) (command : LwM2mCommand) (responseTx : Nat) (now : Instant) :
    PendingOperation :=
  { id, command, responseTx, firstAckTx := none, createdAt := now, attempts := 0 }

def factoryResetPath : ResourcePath := ⟨3, 0, 5⟩
def pingPath : ResourcePath := ⟨1, 1, 8⟩

/-- `mod.rs::response_type_to_class_detail`; every status it does not name is
reported as 5.00. -/
def responseTypeToClassDetail : Status → UInt8 × UInt8
  | .created => (2, 1)
  | .deleted => (2, 2)
  | .valid => (2, 3)
  | .changed => (2, 4)
  | .content => (2, 5)
  | .badRequest => (4, 0)
  | .unauthorized => (4, 1)
  | .badOption => (4, 2)
  | .forbidden => (4, 3)
  | .notFound => (4, 4)
  | .methodNotAllowed => (4, 5)
  | .notAcceptable => (4, 6)
  | .preconditionFailed => (4, 12)
  | .requestEntityTooLarge => (4, 13)
  | .unsupportedContentFormat => (4, 15)
  | .internalServerError => (5, 0)
  | .notImplemented => (5, 1)
  | .badGateway => (5, 2)
  | .serviceUnavailable => (5, 3)
  | .gatewayTimeout => (5, 4)
  | .proxyingNotSupported => (5, 5)
  | _ => (5, 0)

/-- `mod.rs::coap_response_to_result`. -/
def coapResponseToResult (packet : Packet) : LwM2mResult :=
  match packet.code with
  | .response status =>
    let (class_, detail) := responseTypeToClassDetail status
    if class_ = 2 then .ok (.coapResponse class_ detail) else .error (.coapError class_ detail)
  | _ => .error (.coapError 5 0)

end Lwm2mServer
