import Lwm2mServer.Server
import Lwm2mServer.StartUp

/-! The running server together with its state directory. Handlers do not
write files themselves: once their own work is done they read the snapshots or
the included list, each under its lock, and spawn a blocking task that writes
them. A save is one step here; `AtomicWrites` takes it apart. The wall clock
stays `wall` seconds ahead of the monotonic one. -/
namespace Lwm2mServer
open Library StartUp StateDirectory

/-- One file operation of a spawned task. Reads of the included list are
numbered, and a list carries the number of its read. -/
inductive DiskOp where
  | saveRegistry (snapshots : List DeviceSnapshot)
  | saveIncluded (read : Nat) (endpoints : List String)
  | saveDeviceState (endpoint : String) (state : Json)
  | deleteDeviceState (endpoint : String)

/-- The directory after a file operation. -/
def StateDirectory.StateDir.apply (sessionTo : String) (dir : StateDir) : DiskOp → StateDir
  | .saveRegistry snapshots => dir.writeRegistry (saveRegistry sessionTo snapshots)
  | .saveIncluded _ endpoints => dir.writeIncluded (saveIncluded endpoints)
  | .saveDeviceState endpoint state => dir.saveDeviceState endpoint state
  | .deleteDeviceState endpoint => dir.deleteDeviceState endpoint

/-- The file an operation goes to. -/
def StateDirectory.StateDir.target (dir : StateDir) : DiskOp → Option (List String)
  | .saveRegistry _ => some registryFile
  | .saveIncluded _ _ => some includedFile
  | .saveDeviceState endpoint _ => dir.savesTo endpoint
  | .deleteDeviceState endpoint => dir.deletes endpoint

/-- What a task still has to read before it spawns its save. -/
inductive Tail where
  /-- The snapshots, after the registration or removal of an endpoint. -/
  | registry (endpoint : String)
  /-- The included list, after `mark_included`. -/
  | included
  /-- The included list, at the end of `handle_exclusion`. -/
  | exclusion (device : String)
  /-- The snapshots, at the end of `handle_exclusion`, with the list read. -/
  | excluded (device : String) (read : Nat) (endpoints : List String)
  | finished

/-- The server, the tasks that are about to spawn saves, the spawned ones with
what each still has to do, oldest first, and the state directory. `reports` are
the reports merged so far with the endpoints they were saved for, newest
first. -/
structure Storage where
  server : Server
  tails : Tasks Tail := {}
  /-- The tail of the handler the receive loop is in. -/
  recvTail : Option Nat := none
  /-- The endpoint `handle_dp` found for the report it is handling. -/
  reporter : String := ""
  /-- How often the included list was read. -/
  reads : Nat := 0
  jobs : List (List DiskOp) := []
  dir : StateDir
  reports : List (String × Json) := []

inductive StorageAction where
  | server (action : Action)
  /-- A task reads what it saves; the list comes out of the included set in any
  order. -/
  | tail (id : Nat) (order : List String)
  /-- A spawned task does its next file operation. -/
  | run (index : Nat)

namespace Storage

/-- The receive loop is still in a handler that is about to spawn a save. -/
def busy (s : Storage) : Action → Bool
  | .receive _ _ | .recv _ => s.recvTail.isSome
  | _ => false

def spawnTail (s : Storage) (tail : Tail) : Storage := { s with tails := s.tails.spawn tail }

def spawnJob (s : Storage) (ops : List DiskOp) : Storage := { s with jobs := s.jobs ++ [ops] }

/-- The handler goes on with a tail after its last step modelled by
`recvStep`. -/
def spawnRecvTail (s : Storage) (tail : Tail) : Storage :=
  { s.spawnTail tail with recvTail := some s.tails.count }

/-- What a step of the receive loop from `before` leaves to be saved. -/
def afterRecv (s : Storage) (before : Server) : Storage :=
  match before.recv with
  | .askIncluded endpoint _ =>
    if before.boot.isIncluded endpoint then s.spawnRecvTail (.registry endpoint) else s
  | .deregister addr =>
    match (before.devices.removeByAddr addr).1 with
    | some endpoint => s.spawnRecvTail (.registry endpoint)
    | none => s
  | .findReporter _ addr =>
    match before.devices.endpointByAddr addr with
    | some (some endpoint) => { s with reporter := endpoint }
    | _ => s
  | .mergeReport report addr =>
    match before.devices.mergeDeviceStateByAddr addr report with
    | some (state, _) =>
      { s.spawnJob [.saveDeviceState s.reporter state] with
        reports := (s.reporter, report) :: s.reports }
    | none => s
  | _ => s

/-- What a step of the server from `before` leaves to be saved. -/
def afterStep (s : Storage) (before : Server) : Action → Storage
  | .recv _ => s.afterRecv before
  | .phase id _ =>
    match before.phases.get? id with
    | some task => match task.pc with
      | .mark => s.spawnTail .included
      | _ => s
    | none => s
  | .exclusion id =>
    match before.exclusions.get? id with
    | some task => match task.pc with
      | .persist => s.spawnTail (.exclusion task.device)
      | _ => s
    | none => s
  | .removal id =>
    match before.removals.get? id with
    | some task => s.spawnTail (.registry task.endpoint)
    | none => s
  | _ => s

/-- The Unix time. -/
def unixNow (s : Storage) (wall : Nat) : Nat := wall + s.server.clock / 1000000000

def snapshot (s : Storage) (wall : Nat) : List DeviceSnapshot :=
  s.server.devices.snapshot s.server.clock (s.unixNow wall)

/-- One read of a task that is about to spawn its save, and the spawn once all
is read. -/
def tailStep (wall : Nat) (s : Storage) (id : Nat) (order : List String) : Option Storage := do
  let tail ← s.tails.get? id
  let goto tail := s.tails.update id tail
  let listed := order.toFinset = s.server.boot.included ∧ order.Nodup
  match tail with
  | .registry _ =>
    return { s.spawnJob [.saveRegistry (s.snapshot wall)] with
      tails := goto .finished
      recvTail := if s.recvTail = some id then none else s.recvTail }
  | .included =>
    if listed then
      return { s.spawnJob [.saveIncluded s.reads order] with
        tails := goto .finished
        reads := s.reads + 1 }
    else none
  | .exclusion device =>
    if listed then
      return { s with tails := goto (.excluded device s.reads order), reads := s.reads + 1 }
    else none
  | .excluded device read endpoints =>
    return { s.spawnJob [.saveIncluded read endpoints, .deleteDeviceState device,
        .saveRegistry (s.snapshot wall)] with
      tails := goto .finished }
  | .finished => none

/-- The next operation of a spawned task. -/
def runStep (sessionTo : String) (s : Storage) (index : Nat) : Option Storage :=
  match s.jobs[index]? with
  | some (op :: rest) =>
    some { s with
      dir := s.dir.apply sessionTo op
      jobs := if rest = [] then s.jobs.eraseIdx index else s.jobs.set index rest }
  | _ => none

def step (env : Env) (sessionTo : String) (wall : Nat) (s : Storage) : StorageAction → Option Storage
  | .server action =>
    if s.busy action then none
    else (s.server.step env action).map fun server =>
      { s with server }.afterStep s.server action
  | .tail id order => s.tailStep wall id order
  | .run index => s.runStep sessionTo index

/-- The server as `main` starts it on a state directory. -/
def started (sessionTo : String) (wall : Nat) (seed : UInt32) (serverUri : Option String)
    (clock : Instant) (dir : StateDir) : Storage :=
  let left := startUp sessionTo (wall + clock / 1000000000) clock dir
  { server := .initial seed serverUri (loadIncluded dir.included.document) left.1 clock
    dir := left.2 }

end Storage
end Lwm2mServer
