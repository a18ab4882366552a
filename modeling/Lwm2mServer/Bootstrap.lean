import Lwm2mServer.Model
import Mathlib.Data.Finset.Basic

/-! `bootstrap.rs::BootstrapRegistry`: pending GET /0/0 sessions, the
certificate cache, inclusion approvals, the included set and the channels the
write phase waits on. Every method holds the lock for its whole body, so each
is one function of the state; the key material is not part of it. -/
namespace Lwm2mServer
open Library

/-- One GET /0/0 in progress. -/
structure BootstrapSession where
  endpoint : String
  startedAt : Instant
  pubkeyPayload : Option Bytes

/-- `RegistryInner` together with the token counter. `oneshots` are the
channels whose senders `writeAcks` holds. -/
structure BootstrapRegistry where
  byToken : Table Token BootstrapSession
  byEndpoint : Table String Token
  certCache : Table String Bytes
  approved : Finset String
  includableIds : Table String UInt32
  includableById : Table UInt32 String
  nextIncludableId : UInt32
  included : Finset String
  midCounter : UInt16
  writeAcks : Table Token Nat
  oneshots : Oneshots Bool
  tokenCounter : UInt32
  serverUri : Option String

namespace BootstrapRegistry

/-- `new`; `seed` is the sub-second part of the start-up clock. -/
def new (seed : UInt32) (serverUri : Option String) : BootstrapRegistry where
  byToken := ∅
  byEndpoint := ∅
  certCache := ∅
  approved := ∅
  includableIds := ∅
  includableById := ∅
  nextIncludableId := 1
  included := ∅
  midCounter := (seed >>> 2).toUInt16
  writeAcks := ∅
  oneshots := {}
  tokenCounter := 0x80000000 ||| (seed &&& 0x7FFFFFFF)
  serverUri := serverUri

/-- `alloc_inner`: both counters wrap. -/
def allocInner (r : BootstrapRegistry) : (Token × UInt16) × BootstrapRegistry :=
  ((tokenOfId r.tokenCounter, r.midCounter),
    { r with tokenCounter := r.tokenCounter + 1, midCounter := r.midCounter + 1 })

/-- `begin`: nothing happens while a GET /0/0 for the endpoint is in flight. -/
def begin (r : BootstrapRegistry) (now : Instant) (endpoint : String) :
    Option (Token × UInt16) × BootstrapRegistry :=
  if (r.byEndpoint.lookup endpoint).isSome then (none, r)
  else
    let ((token, mid), r) := r.allocInner
    (some (token, mid), { r with
      byEndpoint := r.byEndpoint.insert endpoint token
      byToken := r.byToken.insert token ⟨endpoint, now, none⟩ })

/-- `complete`: the payload goes into the certificate cache at once. -/
def complete (r : BootstrapRegistry) (token : Token) (payload : Bytes) :
    Option BootstrapSession × BootstrapRegistry :=
  match r.byToken.lookup token with
  | none => (none, r)
  | some session =>
    (some { session with pubkeyPayload := some payload }, { r with
      byToken := r.byToken.erase token
      byEndpoint := r.byEndpoint.erase session.endpoint
      certCache := r.certCache.insert session.endpoint payload })

/-- `is_pending`. -/
def isPending (r : BootstrapRegistry) (token : Token) : Bool := (r.byToken.lookup token).isSome

/-- `has_cert`. -/
def hasCert (r : BootstrapRegistry) (endpoint : String) : Bool :=
  (r.certCache.lookup endpoint).isSome

/-- `get_cert`. -/
def getCert (r : BootstrapRegistry) (endpoint : String) : Option Bytes :=
  r.certCache.lookup endpoint

/-- `remove_from_cert_cache`. -/
def removeFromCertCache (r : BootstrapRegistry) (endpoint : String) : BootstrapRegistry :=
  { r with certCache := r.certCache.erase endpoint }

/-- `alloc_token_mid`. -/
def allocTokenMid (r : BootstrapRegistry) : (Token × UInt16) × BootstrapRegistry := r.allocInner

/-- The sender stored under a token, if any, is dropped. -/
def dropWriteAck (r : BootstrapRegistry) (token : Token) : Oneshots Bool :=
  match r.writeAcks.lookup token with
  | some sender => r.oneshots.drop sender
  | none => r.oneshots

/-- `register_write_ack`: inserting under a token in use drops the sender that
was there. -/
def registerWriteAck (r : BootstrapRegistry) (token : Token) : Nat × BootstrapRegistry :=
  let (receiver, oneshots) := (r.dropWriteAck token).channel
  (receiver, { r with writeAcks := r.writeAcks.insert token receiver, oneshots })

/-- `complete_write_ack`: the sender is taken out and fired; its identity is
returned for the history. -/
def completeWriteAck (r : BootstrapRegistry) (token : Token) (success : Bool) :
    Option Nat × BootstrapRegistry :=
  match r.writeAcks.lookup token with
  | some sender => (some sender, { r with
      writeAcks := r.writeAcks.erase token
      oneshots := r.oneshots.send sender success })
  | none => (none, r)

/-- `cancel_write_ack`. -/
def cancelWriteAck (r : BootstrapRegistry) (token : Token) : BootstrapRegistry :=
  { r with writeAcks := r.writeAcks.erase token, oneshots := r.dropWriteAck token }

/-- One round of the loop of `expire_stale`. -/
def expireOne (r : BootstrapRegistry) (token : Token) : BootstrapRegistry :=
  match r.byToken.lookup token with
  | none => r
  | some session => { r with
      byToken := r.byToken.erase token
      byEndpoint := r.byEndpoint.erase session.endpoint }

/-- `expire_stale`. -/
def expireStale (r : BootstrapRegistry) (now : Instant) (maxSecs : Nat) : BootstrapRegistry :=
  let stale := r.byToken.entries.filter fun entry => maxSecs < elapsedSecs now entry.2.startedAt
  (stale.map (·.1)).foldl expireOne r

/-- `ensure_includable_id`. -/
def ensureIncludableId (r : BootstrapRegistry) (endpoint : String) : UInt32 × BootstrapRegistry :=
  match r.includableIds.lookup endpoint with
  | some id => (id, r)
  | none =>
    let id := r.nextIncludableId
    (id, { r with
      nextIncludableId := r.nextIncludableId + 1
      includableIds := r.includableIds.insert endpoint id
      includableById := r.includableById.insert id endpoint })

/-- `is_approved`. -/
def isApproved (r : BootstrapRegistry) (endpoint : String) : Bool := endpoint ∈ r.approved

/-- `approve_inclusion`. -/
def approveInclusion (r : BootstrapRegistry) (id : UInt32) : Option String × BootstrapRegistry :=
  match r.includableById.lookup id with
  | none => (none, r)
  | some endpoint => (some endpoint, { r with approved := insert endpoint r.approved })

/-- `consume_approval`. -/
def consumeApproval (r : BootstrapRegistry) (endpoint : String) : BootstrapRegistry :=
  { r with approved := r.approved.erase endpoint }

/-- `remove_includable_id`. -/
def removeIncludableId (r : BootstrapRegistry) (endpoint : String) : BootstrapRegistry :=
  match r.includableIds.lookup endpoint with
  | none => r
  | some id => { r with
      includableIds := r.includableIds.erase endpoint
      includableById := r.includableById.erase id }

/-- `mark_included`. -/
def markIncluded (r : BootstrapRegistry) (endpoint : String) : BootstrapRegistry :=
  { r with included := insert endpoint r.included }

/-- `is_included`. -/
def isIncluded (r : BootstrapRegistry) (endpoint : String) : Bool := endpoint ∈ r.included

/-- `unmark_included`. -/
def unmarkIncluded (r : BootstrapRegistry) (endpoint : String) : BootstrapRegistry :=
  { r with included := r.included.erase endpoint }

/-- `load_included`. -/
def loadIncluded (r : BootstrapRegistry) (endpoints : List String) : BootstrapRegistry :=
  { r with included := endpoints.foldl (fun set endpoint => insert endpoint set) r.included }

end BootstrapRegistry
end Lwm2mServer
