import Lwm2mServer.DevicePayload
import Lwm2mServer.Gateway

/-! The write commands of `ipc/command.rs`. A write to
`firmware_update/0/package` is a firmware upload: the handler takes the one
lock for uploads, hands the write to the dispatch task and waits. For an image
of several blocks it answers after the first acknowledgement and leaves the
lock to a watcher. Every other path is resolved through the IPSO model. A wait
ends when its answer is there, and may time out at any time before. -/
namespace Lwm2mServer
open Library

/-! ## Paths -/

/-- `model.rs::FOTA_PATH`. -/
def fotaPath : ResourcePath := ⟨5, 0, 0⟩

/-- `str::parse::<u16>`. -/
def parseU16 (text : String) : Option UInt16 :=
  (parseU32 text).bind fun value => if value.toNat < 2 ^ 16 then some value.toUInt16 else none

/-- `path.splitn(3, '/')`, when it gives three parts. -/
def splitPath (path : String) : Option (String × String × String) :=
  match splitText '/' path with
  | object :: inst :: resource :: rest => some (object, inst, joinText '/' (resource :: rest))
  | _ => none

/-- `object_id_by_name`. -/
def IpsoModel.objectIdByName (ipso : IpsoModel) (name : String) : Option UInt32 :=
  (ipso.objects.entries.find? fun entry => entry.2.values.any fun def_ => def_.name = name).map (·.1)

/-- `resource_id_by_name`. -/
def IpsoModel.resourceIdByName (ipso : IpsoModel) (objectId : UInt32) (name : String)
    (version : Option String) : Option UInt32 := do
  let def_ ← ipso.getVersioned objectId version
  (def_.resources.entries.find? fun entry => entry.2.name = name).map (·.1)

/-- `resolve_resource`, with the ids cut to the 16 bits a path has. A panic of
the registry leaves no result. -/
def resolveResource (ipso : IpsoModel) (devices : DeviceRegistry) (path device : String) :
    Option (Option (SocketAddr × ResourcePath)) :=
  let named := do
    let (object, inst, resource) ← splitPath path
    let instId ← parseU16 inst
    let objId ← ipso.objectIdByName object
    return (objId, instId, resource)
  match named with
  | none => some none
  | some (objId, instId, resource) => do
    let found ← devices.addrAndIdByEndpoint device
    return do
      let (addr, _, versions) ← found
      let resId ← ipso.resourceIdByName objId resource (versions.lookup objId)
      return (addr, ⟨objId.toUInt16, instId, resId.toUInt16⟩)

/-- A sign before the instance leads to the firmware resource, past the path
that is matched literally. -/
example : resolveResource ⟨AList.insert 5 (AList.insert "" ⟨"firmware_update", "urn:oma:lwm2m:oma:5",
      AList.insert 0 ⟨"package", .opaqueBytes, false⟩ ∅⟩ ∅) ∅⟩
    (DeviceRegistry.new.restore 0 [⟨1, "mower", Peer.addr, 60, [], ∅, "1.1", "", 60⟩])
    "firmware_update/+0/package" "mower" = some (some (Peer.addr, fotaPath)) := by decide +kernel

/-! ## The handlers -/

/-- Where `handle_fota_write` is, and then its watcher. -/
inductive UploadPc where
  | find
  | lock (addr : SocketAddr)
  | dispatch (addr : SocketAddr)
  /-- `send_fota_single` waits for the answer. -/
  | waitSingle
  | waitFirst (firstAck : Nat)
  /-- The watcher waits for the end of the transfer. -/
  | watch
  | finished
  deriving DecidableEq

/-- A firmware upload. The bytes are those of `vo`, when there is such a field
and it is base64. -/
structure Upload where
  device : String
  bytes : Option Bytes
  pc : UploadPc

inductive WritePc where
  | resolve
  | dispatch (addr : SocketAddr) (path : ResourcePath)
  | finished
  deriving DecidableEq

/-- `handle_write_path` for any other path; the value is what
`encode_write_payload` makes of the payload. -/
structure ResourceWrite where
  device : String
  path : String
  value : Option (Bytes × UInt16)
  pc : WritePc

structure Ipc where
  gateway : Gateway
  uploads : Tasks Upload := {}
  writes : Tasks ResourceWrite := {}
  /-- `fota_lock` is taken. -/
  fotaLock : Bool := false

inductive IpcAction where
  /-- Anything else; the other commands hand their operations over here. -/
  | gateway (action : GatewayAction)
  /-- A write command arrives. -/
  | write (path device : String) (bytes : Option Bytes) (value : Option (Bytes × UInt16))
  | upload (id : Nat)
  | resourceWrite (id : Nat)

namespace Ipc

def packagePath : String := "firmware_update/0/package"

/-- The operations of the write commands come from their own handlers. -/
def handsWrite : GatewayAction → Bool
  | .request _ (.write ..) _ | .request _ _ true => true
  | _ => false

/-- The first acknowledgement of a transfer has been signalled. -/
def acked (g : Gateway) (firstAck : Nat) : Bool :=
  g.answers.any fun reply => decide (reply.1 = firstAck) && reply.2.toBool

/-- One step of an upload. -/
def uploadStep (env : Env) (s : Ipc) (id : Nat) : Option Ipc := do
  let task ← s.uploads.get? id
  let goto pc := s.uploads.update id { task with pc }
  match task.pc with
  | .find =>
    let found ← s.gateway.server.devices.addrAndIdByEndpoint task.device
    return { s with
      uploads := goto <| match found, task.bytes with
        | some (addr, _, _), some _ => .lock addr
        | _, _ => .finished }
  | .lock addr =>
    if s.fotaLock then return { s with uploads := goto .finished }
    else return { s with uploads := goto (.dispatch addr), fotaLock := true }
  | .dispatch addr =>
    let bytes := task.bytes.getD []
    let large := decide (Client.blockThreshold < bytes.length)
    let gateway ← s.gateway.step env (.request addr (.write fotaPath bytes 42) large)
    return { s with
      gateway
      uploads := goto (if large then .waitFirst (s.gateway.channels + 1) else .waitSingle) }
  | .waitFirst firstAck =>
    if acked s.gateway firstAck then return { s with uploads := goto .watch }
    else return { s with uploads := goto .finished, fotaLock := false }
  | .waitSingle | .watch => return { s with uploads := goto .finished, fotaLock := false }
  | .finished => none

/-- One step of another write. -/
def resourceWriteStep (env : Env) (ipso : IpsoModel) (s : Ipc) (id : Nat) : Option Ipc := do
  let task ← s.writes.get? id
  let goto pc := s.writes.update id { task with pc }
  match task.pc with
  | .resolve =>
    let found ← resolveResource ipso s.gateway.server.devices task.path task.device
    return { s with
      writes := goto <| match found, task.value with
        | some (addr, path), some _ => .dispatch addr path
        | _, _ => .finished }
  | .dispatch addr path =>
    let (value, contentFormat) := task.value.getD ([], 0)
    let gateway ← s.gateway.step env (.request addr (.write path value contentFormat) false)
    return { s with gateway, writes := goto .finished }
  | .finished => none

def step (env : Env) (ipso : IpsoModel) (s : Ipc) : IpcAction → Option Ipc
  | .gateway action =>
    if handsWrite action then none
    else (s.gateway.step env action).map fun gateway => { s with gateway }
  | .write path device bytes value =>
    if path = packagePath then
      some { s with uploads := s.uploads.spawn ⟨device, bytes, .find⟩ }
    else some { s with writes := s.writes.spawn ⟨device, path, value, .resolve⟩ }
  | .upload id => s.uploadStep env id
  | .resourceWrite id => s.resourceWriteStep env ipso id

def machine (env : Env) (ipso : IpsoModel) : Machine Ipc IpcAction where
  start s := ∃ gateway, (Gateway.machine env).start gateway ∧ s = { gateway }
  step := step env ipso

end Ipc
end Lwm2mServer
