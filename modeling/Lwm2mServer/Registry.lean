import Lwm2mServer.Model
import Lwm2mServer.Json

/-! `registry.rs`: the in-memory store of registered devices. Every method
takes the lock once, so each is one function of the state. A method that
indexes a map (`by_id[&id]`) or unwraps a lookup returns an `Option`, and
`none` is the panic; methods the source writes without such an access return
plain values. Response channels a method fires are returned with the result
they are fired with. -/
namespace Lwm2mServer
open Library

/-- `model.rs::Device`. -/
structure Device where
  id : UInt32
  endpoint : String
  addr : SocketAddr
  lifetime : UInt32
  registeredAt : Instant
  lastRegisteredAt : Instant
  lastContact : Instant
  objects : List String
  objectVersions : Table UInt32 String
  lwm2mVersion : String
  bindingMode : String
  state : Json
  online : Option Bool
  offlineSince : Option Instant
  lastPingAttempt : Option Instant
  pendingOps : List PendingOperation
  inFlight : Table Token PendingOperation

/-- What a device states about itself in a registration request. -/
structure Registration where
  lifetime : UInt32
  objects : List String
  objectVersions : Table UInt32 String
  lwm2mVersion : String
  bindingMode : String

/-- `Device::new`. -/
def Device.new (id : UInt32) (endpoint : String) (addr : SocketAddr) (reg : Registration)
    (now : Instant) : Device where
  id := id
  endpoint := endpoint
  addr := addr
  lifetime := reg.lifetime
  registeredAt := now
  lastRegisteredAt := now
  lastContact := now
  objects := reg.objects
  objectVersions := reg.objectVersions
  lwm2mVersion := reg.lwm2mVersion
  bindingMode := reg.bindingMode
  state := .obj []
  online := some true
  offlineSince := none
  lastPingAttempt := none
  pendingOps := []
  inFlight := ∅

/-- The fields `register` overwrites when the endpoint is already known. -/
def Device.refresh (dev : Device) (addr : SocketAddr) (reg : Registration) (now : Instant) : Device :=
  { dev with
    addr
    lifetime := reg.lifetime
    objects := reg.objects
    objectVersions := reg.objectVersions
    lwm2mVersion := reg.lwm2mVersion
    bindingMode := reg.bindingMode
    registeredAt := now
    lastRegisteredAt := now
    lastContact := now }

/-- `Device::is_expired`. -/
def Device.isExpired (dev : Device) (now : Instant) (graceSecs : UInt32) : Bool :=
  dev.lifetime.toNat + graceSecs.toNat < elapsedSecs now dev.lastRegisteredAt

/-- `registry.rs::DeviceSnapshot`; `endOfLife` is in Unix seconds. -/
structure DeviceSnapshot where
  id : UInt32
  endpoint : String
  addr : SocketAddr
  lifetime : UInt32
  objects : List String
  objectVersions : Table UInt32 String
  lwm2mVersion : String
  bindingMode : String
  endOfLife : Nat

/-- `registry.rs::RegistryInner`. -/
structure DeviceRegistry where
  byId : Table UInt32 Device
  byEndpoint : Table String UInt32
  byAddr : Table SocketAddr UInt32
  nextId : UInt32

/-- A response channel with the result it is fired with. -/
abbrev Reply := Nat × LwM2mResult

namespace DeviceRegistry

def new : DeviceRegistry := ⟨∅, ∅, ∅, 1⟩

/-- `*inner.by_id.get_mut(&id) = change(..)` for a device known to be there. -/
def putDevice (r : DeviceRegistry) (id : UInt32) (dev : Device) : DeviceRegistry :=
  { r with byId := r.byId.insert id dev }

/-- `register`: a known endpoint keeps its id, and its address index entry
moves when the address changed; an unknown endpoint gets the next id. -/
def register (r : DeviceRegistry) (now : Instant) (endpoint : String) (addr : SocketAddr)
    (reg : Registration) : Option (UInt32 × DeviceRegistry) :=
  match r.byEndpoint.lookup endpoint with
  | some id => do
    let oldAddr := (← r.byId.lookup id).addr
    let r := if oldAddr ≠ addr then
        { r with byAddr := (r.byAddr.erase oldAddr).insert addr id }
      else r
    let dev ← r.byId.lookup id
    return (id, r.putDevice id (dev.refresh addr reg now))
  | none =>
    let id := r.nextId
    -- `wrapping_add(1).max(1)`
    let r := { r with nextId := max (r.nextId + 1) 1 }
    some (id, { r with
      byId := r.byId.insert id (Device.new id endpoint addr reg now)
      byEndpoint := r.byEndpoint.insert endpoint id
      byAddr := r.byAddr.insert addr id })

/-- `renew_registration`. -/
def renewRegistration (r : DeviceRegistry) (now : Instant) (addr : SocketAddr)
    (newLifetime : Option UInt32) : DeviceRegistry :=
  match r.byAddr.lookup addr with
  | none => r
  | some id => match r.byId.lookup id with
    | none => r
    | some dev => r.putDevice id
      { dev with lastRegisteredAt := now, lifetime := newLifetime.getD dev.lifetime }

/-- `touch`: the endpoint is returned when the device just came online. -/
def touch (r : DeviceRegistry) (now : Instant) (addr : SocketAddr) :
    Option (Option String × DeviceRegistry) :=
  match r.byAddr.lookup addr with
  | none => some (none, r)
  | some id => do
    let dev ← r.byId.lookup id
    let dev := { dev with lastContact := now, addr }
    if dev.online ≠ some true then
      return (some dev.endpoint, r.putDevice id { dev with online := some true, offlineSince := none })
    else
      return (none, r.putDevice id dev)

/-- `set_device_offline`. -/
def setDeviceOffline (r : DeviceRegistry) (now : Instant) (addr : SocketAddr) :
    Option String × DeviceRegistry :=
  match r.byAddr.lookup addr with
  | none => (none, r)
  | some id => match r.byId.lookup id with
    | none => (none, r)
    | some dev =>
      if dev.online = some true then
        (some dev.endpoint, r.putDevice id { dev with online := some false, offlineSince := some now })
      else (none, r)

/-- The `needs_ping` test of `take_ping_candidates`. -/
def needsPing (now : Instant) (offlineInterval onlineInterval offlineMaxDuration : Nat)
    (dev : Device) : Bool :=
  match dev.online with
  | some true =>
    onlineInterval ≤ elapsed now dev.lastContact &&
      dev.lastPingAttempt.all (fun at_ => onlineInterval ≤ elapsed now at_)
  | some false =>
    dev.offlineSince.any (fun since => elapsed now since < offlineMaxDuration) &&
      dev.lastPingAttempt.all (fun at_ => offlineInterval ≤ elapsed now at_)
  | none => false

/-- `take_ping_candidates`: the candidates, and every one of them marked as
attempted now. -/
def takePingCandidates (r : DeviceRegistry) (now : Instant)
    (offlineInterval onlineInterval offlineMaxDuration : Nat) :
    List (String × SocketAddr) × DeviceRegistry :=
  let needs := needsPing now offlineInterval onlineInterval offlineMaxDuration
  ((r.byId.values.filter needs).map fun dev => (dev.endpoint, dev.addr),
    { r with byId := r.byId.mapVals fun _ dev =>
        if needs dev then { dev with lastPingAttempt := some now } else dev })

/-- `drain_pending`. -/
def drainPending (r : DeviceRegistry) (addr : SocketAddr) :
    Option (List PendingOperation × DeviceRegistry) :=
  match r.byAddr.lookup addr with
  | none => some ([], r)
  | some id => do
    let dev ← r.byId.lookup id
    return (dev.pendingOps, r.putDevice id { dev with pendingOps := [] })

/-- `place_in_flight`. -/
def placeInFlight (r : DeviceRegistry) (addr : SocketAddr) (token : Token)
    (op : PendingOperation) : DeviceRegistry :=
  match r.byAddr.lookup addr with
  | none => r
  | some id => match r.byId.lookup id with
    | none => r
    | some dev => r.putDevice id { dev with inFlight := dev.inFlight.insert token op }

/-- `is_in_flight`. -/
def isInFlight (r : DeviceRegistry) (addr : SocketAddr) (token : Token) : Option Bool :=
  match r.byAddr.lookup addr with
  | none => some false
  | some id => (r.byId.lookup id).map fun dev => (dev.inFlight.lookup token).isSome

/-- `complete_in_flight`. -/
def completeInFlight (r : DeviceRegistry) (addr : SocketAddr) (token : Token) :
    Option PendingOperation × DeviceRegistry :=
  match r.byAddr.lookup addr with
  | none => (none, r)
  | some id => match r.byId.lookup id with
    | none => (none, r)
    | some dev => (dev.inFlight.lookup token,
      r.putDevice id { dev with inFlight := dev.inFlight.erase token })

/-- Every operation of a removed device is answered with a timeout. -/
def timeoutReplies (dev : Device) : List Reply :=
  (dev.pendingOps ++ dev.inFlight.values).map fun op => (op.responseTx, .error .timeout)

/-- A removed device leaves the three maps: its id, its endpoint and the
address index entry at `addr`. -/
def removeDevice (r : DeviceRegistry) (id : UInt32) (dev : Device) (addr : SocketAddr) :
    DeviceRegistry :=
  { r with
    byId := r.byId.erase id
    byEndpoint := r.byEndpoint.erase dev.endpoint
    byAddr := r.byAddr.erase addr }

/-- One round of the removal loop of `expire_stale`. -/
def expireOne (acc : List String × List Reply × DeviceRegistry) (id : UInt32) :
    List String × List Reply × DeviceRegistry :=
  let (removed, replies, r) := acc
  match r.byId.lookup id with
  | none => acc
  | some dev =>
    (removed ++ [dev.endpoint], replies ++ timeoutReplies dev, r.removeDevice id dev dev.addr)

/-- `expire_stale`: the ids are read off the expired devices themselves, then
removed one by one. -/
def expireStale (r : DeviceRegistry) (now : Instant) (graceSecs : UInt32) :
    List String × List Reply × DeviceRegistry :=
  let expired := (r.byId.values.filter (·.isExpired now graceSecs)).map (·.id)
  expired.foldl expireOne ([], [], r)

/-- `endpoint_by_addr`. -/
def endpointByAddr (r : DeviceRegistry) (addr : SocketAddr) : Option (Option String) :=
  match r.byAddr.lookup addr with
  | none => some none
  | some id => (r.byId.lookup id).map fun dev => some dev.endpoint

/-- `addr_and_id_by_endpoint`. -/
def addrAndIdByEndpoint (r : DeviceRegistry) (endpoint : String) :
    Option (Option (SocketAddr × UInt32 × Table UInt32 String)) :=
  match r.byEndpoint.lookup endpoint with
  | none => some none
  | some id => (r.byId.lookup id).map fun dev => some (dev.addr, id, dev.objectVersions)

/-- `object_versions_by_addr`. -/
def objectVersionsByAddr (r : DeviceRegistry) (addr : SocketAddr) :
    Option (Option (Table UInt32 String)) :=
  match r.byAddr.lookup addr with
  | none => some none
  | some id => (r.byId.lookup id).map fun dev => some dev.objectVersions

/-- The `op.created_at.elapsed().as_secs() > max_secs` test. -/
def timedOut (now : Instant) (maxSecs : Nat) (op : PendingOperation) : Bool :=
  maxSecs < elapsedSecs now op.createdAt

/-- `timeout_in_flight`. -/
def timeoutInFlight (r : DeviceRegistry) (now : Instant) (maxSecs : Nat) :
    List Reply × DeviceRegistry :=
  (r.byId.values.flatMap fun dev =>
      (dev.inFlight.values.filter (timedOut now maxSecs)).map fun op =>
        (op.responseTx, .error .timeout),
    { r with byId := r.byId.mapVals fun _ dev =>
        { dev with inFlight := dev.inFlight.filterVals fun _ op => !timedOut now maxSecs op } })

/-- `snapshot`; `elapsed as u32` keeps the low 32 bits of the seconds. -/
def snapshot (r : DeviceRegistry) (now : Instant) (nowUnix : Nat) : List DeviceSnapshot :=
  r.byId.values.map fun dev =>
    let elapsed := UInt32.ofNat (elapsedSecs now dev.lastRegisteredAt)
    let remaining := if elapsed ≤ dev.lifetime then dev.lifetime - elapsed else 0
    { id := dev.id
      endpoint := dev.endpoint
      addr := dev.addr
      lifetime := remaining
      objects := dev.objects
      objectVersions := dev.objectVersions
      lwm2mVersion := dev.lwm2mVersion
      bindingMode := dev.bindingMode
      endOfLife := nowUnix + remaining.toNat }

/-- The device a snapshot is restored to: offline until it is heard from. -/
def restoredDevice (now : Instant) (s : DeviceSnapshot) : Device where
  id := s.id
  endpoint := s.endpoint
  addr := s.addr
  lifetime := s.lifetime
  registeredAt := now
  lastRegisteredAt := now
  lastContact := now
  objects := s.objects
  objectVersions := s.objectVersions
  lwm2mVersion := s.lwm2mVersion
  bindingMode := s.bindingMode
  state := .obj []
  online := some false
  offlineSince := some now
  lastPingAttempt := none
  pendingOps := []
  inFlight := ∅

/-- One round of the loop of `restore`. -/
def restoreOne (now : Instant) (r : DeviceRegistry) (s : DeviceSnapshot) : DeviceRegistry where
  nextId := if r.nextId ≤ s.id then s.id + 1 else r.nextId
  byEndpoint := r.byEndpoint.insert s.endpoint s.id
  byAddr := r.byAddr.insert s.addr s.id
  byId := r.byId.insert s.id (restoredDevice now s)

/-- `restore`. -/
def restore (r : DeviceRegistry) (now : Instant) (snapshots : List DeviceSnapshot) :
    DeviceRegistry :=
  snapshots.foldl (restoreOne now) r

/-- `merge_device_state_by_addr`. -/
def mergeDeviceStateByAddr (r : DeviceRegistry) (addr : SocketAddr) (newState : Json) :
    Option (Json × DeviceRegistry) :=
  match r.byAddr.lookup addr with
  | none => some (newState, r)
  | some id => do
    let dev ← r.byId.lookup id
    let state := dev.state.merge newState
    return (state, r.putDevice id { dev with state })

/-- `remove_by_addr`. -/
def removeByAddr (r : DeviceRegistry) (addr : SocketAddr) :
    Option String × List Reply × DeviceRegistry :=
  match r.byAddr.lookup addr with
  | none => (none, [], r)
  | some id => match r.byId.lookup id with
    | none => (none, [], r)
    | some dev => (some dev.endpoint, timeoutReplies dev, r.removeDevice id dev addr)

/-- `device_state_by_endpoint`. -/
def deviceStateByEndpoint (r : DeviceRegistry) (endpoint : String) :
    Option (Option (Json × Option Bool)) :=
  match r.byEndpoint.lookup endpoint with
  | none => some none
  | some id => (r.byId.lookup id).map fun dev => some (dev.state, dev.online)

/-- `restore_device_state`. -/
def restoreDeviceState (r : DeviceRegistry) (endpoint : String) (state : Json) : DeviceRegistry :=
  match r.byEndpoint.lookup endpoint with
  | none => r
  | some id => match r.byId.lookup id with
    | none => r
    | some dev => r.putDevice id { dev with state }

/-- One call of a registry method with its arguments, the clock reading
included. `restore` is missing: it runs once, before the server starts. -/
inductive Op where
  | register (now : Instant) (endpoint : String) (addr : SocketAddr) (reg : Registration)
  | renewRegistration (now : Instant) (addr : SocketAddr) (newLifetime : Option UInt32)
  | touch (now : Instant) (addr : SocketAddr)
  | setDeviceOffline (now : Instant) (addr : SocketAddr)
  | takePingCandidates (now : Instant) (offlineInterval onlineInterval offlineMaxDuration : Nat)
  | drainPending (addr : SocketAddr)
  | placeInFlight (addr : SocketAddr) (token : Token) (op : PendingOperation)
  | isInFlight (addr : SocketAddr) (token : Token)
  | completeInFlight (addr : SocketAddr) (token : Token)
  | expireStale (now : Instant) (graceSecs : UInt32)
  | endpointByAddr (addr : SocketAddr)
  | addrAndIdByEndpoint (endpoint : String)
  | objectVersionsByAddr (addr : SocketAddr)
  | timeoutInFlight (now : Instant) (maxSecs : Nat)
  | mergeDeviceStateByAddr (addr : SocketAddr) (newState : Json)
  | removeByAddr (addr : SocketAddr)
  | deviceStateByEndpoint (endpoint : String)
  | restoreDeviceState (endpoint : String) (state : Json)

/-- The registry after a call; `none` when the call panics. -/
def apply (r : DeviceRegistry) : Op → Option DeviceRegistry
  | .register now endpoint addr reg => (r.register now endpoint addr reg).map (·.2)
  | .renewRegistration now addr newLifetime => some (r.renewRegistration now addr newLifetime)
  | .touch now addr => (r.touch now addr).map (·.2)
  | .setDeviceOffline now addr => some (r.setDeviceOffline now addr).2
  | .takePingCandidates now offlineInterval onlineInterval offlineMaxDuration =>
    some (r.takePingCandidates now offlineInterval onlineInterval offlineMaxDuration).2
  | .drainPending addr => (r.drainPending addr).map (·.2)
  | .placeInFlight addr token op => some (r.placeInFlight addr token op)
  | .isInFlight addr token => (r.isInFlight addr token).map fun _ => r
  | .completeInFlight addr token => some (r.completeInFlight addr token).2
  | .expireStale now graceSecs => some (r.expireStale now graceSecs).2.2
  | .endpointByAddr addr => (r.endpointByAddr addr).map fun _ => r
  | .addrAndIdByEndpoint endpoint => (r.addrAndIdByEndpoint endpoint).map fun _ => r
  | .objectVersionsByAddr addr => (r.objectVersionsByAddr addr).map fun _ => r
  | .timeoutInFlight now maxSecs => some (r.timeoutInFlight now maxSecs).2
  | .mergeDeviceStateByAddr addr newState => (r.mergeDeviceStateByAddr addr newState).map (·.2)
  | .removeByAddr addr => some (r.removeByAddr addr).2.2
  | .deviceStateByEndpoint endpoint => (r.deviceStateByEndpoint endpoint).map fun _ => r
  | .restoreDeviceState endpoint state => some (r.restoreDeviceState endpoint state)

end DeviceRegistry
end Lwm2mServer
