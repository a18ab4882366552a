import Lwm2mServer.ResourceNames
import Lwm2mServer.Library.Slices
import Mathlib.Algebra.Ring.Int.Defs

/-! The command socket of `ipc/command.rs`: a line is an array of requests, each
of any shape, and is answered by an array of responses. A handler looks at the
rest of the server only through the locks it takes, and other tasks run in
between, so a request has a view of its own for each of them. `none` is a panic,
which ends the connection without a response. -/
namespace Lwm2mServer.Commands
open Library

/-! ## What a request sees -/

/-- How the wait for a response channel ends. -/
inductive Answer where
  | timeout
  | dropped
  | result (result : LwM2mResult)

structure RequestView where
  /-- `included_list`. -/
  included : List String
  /-- The registry, when the state of an included device is read. -/
  states : String → DeviceRegistry
  /-- The bootstrap registry, when an inclusion is approved. -/
  bootstrap : BootstrapRegistry
  /-- The model behind the lock, which no one holds while panicking. -/
  ipso : IpsoModel
  /-- The registry, when the device of the request is looked up. -/
  devices : DeviceRegistry
  unixTs : Nat
  /-- The dispatch channel is open. -/
  sent : Bool
  opId : UInt32
  /-- `fota_lock` is taken. -/
  fotaLocked : Bool
  /-- The first block was acknowledged in time. -/
  firstAck : Bool
  answer : Answer

/-- The crates that read and print numbers and bytes: `STANDARD.decode` of base64
and `to_string` of a double. -/
structure Formats where
  decodeBase64 : String → Option Bytes
  floatText : UInt64 → String

/-- A response, and the operation that was handed to the dispatch task for it. -/
structure Response where
  json : Json
  dispatched : Option (SocketAddr × LwM2mCommand) := none

def success : Response := ⟨.object [("success", .bool true)], none⟩
def failure : Response := ⟨.object [("success", .bool false)], none⟩

/-! ## Payloads -/

/-- `Value::as_i64`. -/
def asI64 : Json → Option Int
  | .int value => if -2 ^ 63 ≤ value ∧ value < 2 ^ 63 then some value else none
  | _ => none

/-- `Value::as_f64`. -/
def asF64 : Json → Option UInt64
  | .int value => some (f64OfInt value)
  | .float bits => some bits
  | _ => none

/-- `Value::as_bool`. -/
def asBool : Json → Option Bool
  | .bool value => some value
  | _ => none

def textBytes (text : String) : Bytes := text.toUTF8.data.toList

/-- `execute_args`: the first of the arguments. -/
def executeArgs (payload : Json) : Option Bytes :=
  match (payload.get "as").asArray with
  | some (first :: _) => first.asStr.map textBytes
  | _ => none

/-- `encode_write_payload`: the value and its content format, of the first field
there is. -/
def encodeWritePayload (formats : Formats) (payload : Json) : Option (Bytes × UInt16) :=
  (((payload.get "vs").asStr.map fun s => (textBytes s, 0)).or
    ((asI64 (payload.get "vi")).map fun i => (textBytes (toString i), 0))).or
  ((((asF64 (payload.get "vf")).map fun f => (textBytes (formats.floatText f), 0)).or
    ((asBool (payload.get "vb")).map fun b => (textBytes (if b then "1" else "0"), 0))).or
  (((asI64 (payload.get "vt")).map fun t => (textBytes (toString t), 0)).or
    (((payload.get "vo").asStr.bind formats.decodeBase64).map fun bytes => (bytes, 42))))

/-! ## Responses -/

/-- `coap_status_name`. -/
def coapStatusName (class_ detail : UInt8) : String :=
  match class_.toNat, detail.toNat with
  | 2, 1 => "CREATED"
  | 2, 2 => "DELETED"
  | 2, 3 => "VALID"
  | 2, 4 => "CHANGED"
  | 2, 5 => "CONTENT"
  | 4, 0 => "BAD_REQUEST"
  | 4, 1 => "UNAUTHORIZED"
  | 4, 2 => "BAD_OPTION"
  | 4, 3 => "FORBIDDEN"
  | 4, 4 => "NOT_FOUND"
  | 4, 5 => "METHOD_NOT_ALLOWED"
  | 4, 6 => "NOT_ACCEPTABLE"
  | 4, 12 => "PRECONDITION_FAILED"
  | 4, 13 => "REQUEST_ENTITY_TOO_LARGE"
  | 4, 15 => "UNSUPPORTED_CONTENT_FORMAT"
  | 5, 0 => "INTERNAL_SERVER_ERROR"
  | 5, 1 => "NOT_IMPLEMENTED"
  | 5, 2 => "BAD_GATEWAY"
  | 5, 3 => "SERVICE_UNAVAILABLE"
  | 5, 4 => "GATEWAY_TIMEOUT"
  | 5, 5 => "PROXYING_NOT_SUPPORTED"
  | _, _ => "UNKNOWN"

structure ResolvedResource where
  addr : SocketAddr
  devId : UInt32
  objId : UInt32
  instId : UInt16
  resId : UInt32

/-- The object, the instance and the name of the resource in a path. -/
def namedIn (ipso : IpsoModel) (path : String) : Option (UInt32 × UInt16 × String) := do
  let (object, inst, resource) ← splitPath path
  let instId ← parseU16 inst
  let objId ← ipso.objectIdByName object
  return (objId, instId, resource)

/-- `resolve_resource`. -/
def resolve (view : RequestView) (path device : String) : Option (Option ResolvedResource) :=
  match namedIn view.ipso path with
  | none => some none
  | some (objId, instId, resource) => do
    let found ← view.devices.addrAndIdByEndpoint device
    return do
      let (addr, devId, versions) ← found
      let resId ← view.ipso.resourceIdByName objId resource (versions.lookup objId)
      return ⟨addr, devId, objId, instId, resId⟩

def ResolvedResource.path (r : ResolvedResource) : ResourcePath :=
  ⟨r.objId.toUInt16, r.instId, r.resId.toUInt16⟩

/-- `dispatch_and_await`. -/
def dispatchAndAwait (view : RequestView) (command : LwM2mCommand) (r : ResolvedResource) : Response :=
  if view.sent then
    { json := match view.answer with
        | .result (.ok (.coapResponse class_ detail)) =>
          .object
            [("metadata", .object
              [("lwm2m_client_id", .int r.devId.toNat),
                ("lwm2m_uri", .arr [.int r.objId.toNat, .int r.instId.toNat, .int r.resId.toNat]),
                ("lwm2m_response", .str (coapStatusName class_ detail)),
                ("lwm2m_response_code", .int (class_.toNat * 32 + detail.toNat))]),
              ("success", .bool true)]
        | _ => failure.json
      dispatched := some (r.addr, command) }
  else failure

/-- `handle_exclusion`. The device is forgotten whatever it answers. -/
def handleExclusion (view : RequestView) (device : String) : Option Response := do
  let found ← view.devices.addrAndIdByEndpoint device
  let tag := match found, view.sent, view.answer with
    | none, _, _ => some "device_not_connected"
    | some _, true, .result (.ok (.coapResponse class_ _)) =>
      if class_ = 2 then none else some "device_failure"
    | some _, true, .timeout => some "device_timeout"
    | some _, _, _ => some "device_failure"
  return {
    json := .object
      [("metadata", .object (tag.toList.map fun tag => ("exclusion", .str tag))),
        ("success", .bool true)]
    dispatched := match found, view.sent with
      | some (addr, _, _), true => some (addr, .execute factoryResetPath none)
      | _, _ => none }

/-- `handle_execute_path`. -/
def handleExecutePath (view : RequestView) (path device : String) (payload : Json) : Option Response :=
  if path = ResourceNames.factoryResetName then handleExclusion view device
  else (resolve view path device).map fun
    | some r => dispatchAndAwait view (.execute r.path (executeArgs payload)) r
    | none => failure

/-- `send_fota_single`. -/
def sendFotaSingle (view : RequestView) (addr : SocketAddr) (devId : UInt32) (bytes : Bytes) : Response :=
  if view.sent then
    { json := match view.answer with
        | .result (.ok (.coapResponse class_ detail)) =>
          if class_ = 2 then
            .object
              [("metadata", .object
                [("lwm2m_client_id", .int devId.toNat), ("lwm2m_uri", .arr [.int 5, .int 0, .int 0]),
                  ("lwm2m_response_code", .int (2 * 32 + detail.toNat))]),
                ("success", .bool true)]
          else failure.json
        | _ => failure.json
      dispatched := some (addr, .write fotaPath bytes 42) }
  else failure

/-- `handle_fota_write`. A large image is answered after its first block. -/
def handleFotaWrite (formats : Formats) (view : RequestView) (device : String) (payload : Json) :
    Option Response := do
  let found ← view.devices.addrAndIdByEndpoint device
  return match found, (payload.get "vo").asStr.bind formats.decodeBase64 with
    | some (addr, devId, _), some bytes =>
      if view.fotaLocked then failure
      else if bytes = [0] ∨ bytes.length ≤ Client.blockThreshold then sendFotaSingle view addr devId bytes
      else if view.sent then
        { json := if view.firstAck then
            .object
              [("metadata", .object
                [("lwm2m_client_id", .int devId.toNat), ("operation_id", .int view.opId.toNat)]),
                ("success", .bool true)]
            else failure.json
          dispatched := some (addr, .write fotaPath bytes 42) }
      else failure
    | _, _ => failure

/-- `handle_write_path`. -/
def handleWritePath (formats : Formats) (view : RequestView) (path device : String)
    (payload : Json) : Option Response :=
  if path = Ipc.packagePath then handleFotaWrite formats view device payload
  else (resolve view path device).map fun
    | some r =>
      match encodeWritePayload formats payload with
      | some (value, contentFormat) => dispatchAndAwait view (.write r.path value contentFormat) r
      | none => failure
    | none => failure

/-- `connection_status` is added to a state that is an object. -/
def withStatus (unixTs : Nat) (online : Option Bool) : Json → Json
  | .obj fields =>
    match online with
    | some online => .obj (Json.setField "connection_status" (.object
        [("_urn", .str "urn:oma:lwm2m:x:28171"),
          ("0", .object [("online", .object [("vb", .bool online), ("ts", .int unixTs)])])]) fields)
    | none => .obj fields
  | state => state

/-- The states of the included devices, one after the other. -/
def includedStates (view : RequestView) : List String → Option (List (String × Json))
  | [] => some []
  | endpoint :: rest => do
    let found ← (view.states endpoint).deviceStateByEndpoint endpoint
    let (state, online) := found.getD (.object [], none)
    let later ← includedStates view rest
    return (endpoint, withStatus view.unixTs online state) :: later

/-- A read of `devices`. -/
def readDevices (view : RequestView) : Option Response :=
  (includedStates view view.included).map fun states =>
    ⟨.object [("payload", .object states), ("success", .bool true)], none⟩

def includePrefix : String := "includable_device/"
def includeSuffix : String := "/include"

/-- The request approves an inclusion, if the path names an id. -/
def approves (path : String) : Bool :=
  includePrefix.toList <+: path.toList ∧ includeSuffix.toList <:+ path.toList

/-- An execute of `includable_device/<id>/include`: the id is cut out of the path
by its place. -/
def executeInclude (view : RequestView) (path : String) : Option Response :=
  (sliceBytes (byteLen includePrefix.toList) (byteLen path.toList - byteLen includeSuffix.toList)
      path.toList).map fun middle =>
    match (parseU32 (String.ofList middle)).bind fun id => (view.bootstrap.approveInclusion id).1 with
    | some _ => success
    | none => failure

/-! ## Requests -/

def opOf (req : Json) : String := (req.get "op").asStr.getD ""
def pathOf (req : Json) : String := ((req.get "entity").get "path").asStr.getD ""
def deviceOf (req : Json) : String := ((req.get "entity").get "device").asStr.getD ""

/-- `handle_request`. -/
def handleRequest (formats : Formats) (view : RequestView) (req : Json) : Option Response :=
  let op := opOf req
  let path := pathOf req
  if op = "read" then if path = "devices" then readDevices view else some failure
  else if op = "execute" ∧ approves path then executeInclude view path
  else if op = "execute" ∧ path ≠ "" then
    handleExecutePath view path (deviceOf req) (req.get "payload")
  else if op = "write" ∧ path ≠ "" then
    handleWritePath formats view path (deviceOf req) (req.get "payload")
  else some success

/-- The loop of `dispatch` over the requests, from the `n`-th on. -/
def responses (formats : Formats) (views : Nat → RequestView) :
    Nat → List Json → Option (List Response)
  | _, [] => some []
  | n, req :: rest => do
    let response ← handleRequest formats (views n) req
    let later ← responses formats views (n + 1) rest
    return response :: later

/-- `dispatch`; a line that is no array of values is answered with one failure. -/
def dispatch (parse : String → Option (List Json)) (formats : Formats) (views : Nat → RequestView)
    (line : String) : Option (List Json) :=
  match parse line with
  | some requests => (responses formats views 0 requests).map (·.map Response.json)
  | none => some [failure.json]

/-! ## The operations of a request -/

variable {view : RequestView} {path device : String}

/-- What a handler of `ResourceNames` stands for here. -/
def operationOf (sent : Bool) : ResourceNames.Handled → Option (SocketAddr × LwM2mCommand)
  | .dispatched addr command => if sent then some (addr, command) else none
  | _ => none

theorem resolveResource_eq (view : RequestView) (path device : String) :
    resolveResource view.ipso view.devices path device =
      (resolve view path device).map (Option.map fun r => (r.addr, r.path)) := by
  have parts : resolveResource view.ipso view.devices path device =
      match namedIn view.ipso path with
      | none => some none
      | some (objId, instId, resource) => do
        let found ← view.devices.addrAndIdByEndpoint device
        return do
          let (addr, _, versions) ← found
          let resId ← view.ipso.resourceIdByName objId resource (versions.lookup objId)
          return (addr, ⟨objId.toUInt16, instId, resId.toUInt16⟩) := rfl
  rw [parts, resolve]
  cases namedIn view.ipso path with
  | none => rfl
  | some named =>
    obtain ⟨objId, instId, resource⟩ := named
    cases view.devices.addrAndIdByEndpoint device with
    | none => rfl
    | some found =>
      cases found with
      | none => rfl
      | some entry =>
        obtain ⟨addr, devId, versions⟩ := entry
        cases known : view.ipso.resourceIdByName objId resource (versions.lookup objId) <;>
          simp [known, ResolvedResource.path]

/-- An execute that is no factory reset hands over what its path resolves to. -/
theorem handleExecutePath_dispatched (payload : Json) (other : path ≠ ResourceNames.factoryResetName) :
    (handleExecutePath view path device payload).map (·.dispatched) =
      (ResourceNames.handleExecutePath view.ipso view.devices path device (executeArgs payload)).map
        (operationOf view.sent) := by
  rw [handleExecutePath, ResourceNames.handleExecutePath, if_neg other, if_neg other, resolveResource_eq,
    Option.map_map, Option.map_map, Option.map_map]
  refine congrArg (Option.map · _) (funext fun found => ?_)
  cases found with
  | none => rfl
  | some r => cases sent : view.sent <;> simp [dispatchAndAwait, operationOf, failure, sent]

/-- So does a write that is no firmware upload. -/
theorem handleWritePath_dispatched (formats : Formats) (payload : Json)
    (other : path ≠ Ipc.packagePath) :
    (handleWritePath formats view path device payload).map (·.dispatched) =
      (ResourceNames.handleWritePath view.ipso view.devices path device
        (encodeWritePayload formats payload)).map (operationOf view.sent) := by
  rw [handleWritePath, ResourceNames.handleWritePath, if_neg other, if_neg other, resolveResource_eq,
    Option.map_map, Option.map_map, Option.map_map]
  refine congrArg (Option.map · _) (funext fun found => ?_)
  cases found with
  | none => rfl
  | some r =>
    cases encodeWritePayload formats payload with
    | none => rfl
    | some value => cases sent : view.sent <;> simp [dispatchAndAwait, operationOf, failure, sent]

end Lwm2mServer.Commands
