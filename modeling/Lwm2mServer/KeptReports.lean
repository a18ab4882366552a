import Lwm2mServer.RegistryFile
import Lwm2mServer.ReportedState

/-! What a device has reported, over whole lives of the server with restarts
in between. A report is merged into the record of the device, and the whole
state of the record is saved. `handle_delete`, the expiry and the delayed
removal drop the record and keep the file; a registration after that makes a
record with an empty state, and the next report replaces the file with what
this one record has. -/
namespace Lwm2mServer.KeptReports
open Library DeviceRegistry DeviceRecords ReportedState RestartedRegistry RegistryFile RegistryIndexes
open StartUp StateDirectory StateFiles Storage StorageSteps

/-! ## Lives of the server -/

/-- A step of the server or of its saves, with the object model and the time a
report is built with; or a restart, at some later time. -/
inductive LifeAction where
  | storage (ipso : IpsoModel) (ts : Nat) (action : StorageAction)
  | restart (seed : UInt32) (serverUri : Option String) (clock : Instant)

/-- Reports are built by `build_device_payload`. -/
def envAt (env : Env) (ipso : IpsoModel) (ts : Nat) : Env :=
  { env with buildDevicePayload := buildDevicePayload env.cborDecode ipso ts }

/-- A restart waits for the spawned saves. The reports are the history of the
device and not part of the process. -/
def lifeStep (env : Env) (sessionTo : String) (wall : Nat) (s : Storage) : LifeAction → Option Storage
  | .storage ipso ts action => s.step (envAt env ipso ts) sessionTo wall action
  | .restart seed serverUri clock =>
    if s.jobs.isEmpty ∧ s.server.clock ≤ clock then
      some { started sessionTo wall seed serverUri clock s.dir with reports := s.reports }
    else none

/-- Ids and endpoints are used once. -/
def Apart (snapshots : List DeviceSnapshot) : Prop :=
  (snapshots.map (·.id)).Nodup ∧ (snapshots.map (·.endpoint)).Nodup

/-- The server starts on a registry file that `save_registry` may have left,
and without a state of the device, which can be saved. -/
def machine (env : Env) (sessionTo : String) (wall : Nat) (endpoint : String) :
    Machine Storage LifeAction where
  start s := ∃ seed serverUri clock dir,
    Apart (loadRegistry (wall + clock / 1000000000) dir.registry.document) ∧
      Savable dir endpoint ∧ dir.state endpoint = none ∧ s = started sessionTo wall seed serverUri clock dir
  step := lifeStep env sessionTo wall

/-! ## What is reported and what is saved -/

/-- The reports of an endpoint, newest first. -/
def reported (endpoint : String) (s : Storage) : List Json :=
  s.reports.filterMap fun entry => if entry.1 = endpoint then some entry.2 else none

/-- The state an operation saves for an endpoint. -/
def stateFor (endpoint : String) : DiskOp → Option Json
  | .saveDeviceState name state => if name = endpoint then some state else none
  | _ => none

/-- The states that are still to be saved, in the order of their saves. -/
def awaiting (endpoint : String) (s : Storage) : List Json :=
  s.jobs.flatten.filterMap (stateFor endpoint)

/-- The reports that were persisted: every one but those whose saves are still
to come. -/
def persisted (endpoint : String) (s : Storage) : List Json :=
  (reported endpoint s).drop (awaiting endpoint s).length

/-- The file that reports leave. -/
def fileOf : List Json → Option (Option Json)
  | [] => none
  | reports => some (some (stateOf reports))

/-- Nothing is saved for the endpoint, and nothing is about to be. -/
def nothingSaved (endpoint : String) (s : Storage) : Bool :=
  (s.dir.state endpoint).isNone && (awaiting endpoint s).isEmpty

/-- The endpoint gets a new record only while nothing is saved for it, and a
report goes to the record that its endpoint was read from. -/
def recvKeeps (endpoint : String) (s : Storage) : Recv → Bool
  | .register name _ _ _ => name = endpoint → s.server.devices.byEndpoint.lookup endpoint = none →
    nothingSaved endpoint s
  | .mergeReport _ addr => (renews s.server.devices addr).any (fun dev => dev.endpoint = endpoint) =
    decide (s.reporter = endpoint)
  | _ => true

/-- An operation goes to the endpoint's file only to save its state, and does
not save a state over the registry. -/
def opKeeps (endpoint : String) (dir : StateDir) (op : DiskOp) : Bool :=
  (dir.target op = some (stateFile storeDir endpoint) → (stateFor endpoint op).isSome) &&
    match op with
    | .saveDeviceState name _ => dir.savesTo name ≠ some registryFile
    | _ => true

/-- Besides what the receive loop does: the saves are done in the order they
were spawned and leave the endpoint's file to its own ones; at a restart it has
no file, or is on the list and no orphan's path leads to its file. -/
def keeps (wall : Nat) (endpoint : String) (s : Storage) : LifeAction → Bool
  | .storage _ _ (.server (.recv _)) => recvKeeps endpoint s s.server.recv
  | .storage _ _ (.run index) => index = 0 ∧ (nextOp s index).all (opKeeps endpoint s.dir)
  | .restart _ _ clock => s.dir.state endpoint = none ∨
    endpoint ∈ loadIncluded s.dir.included.document ∧ ¬ OrphanAt (wall + clock / 1000000000)
      (loadIncluded s.dir.included.document) s.dir (stateFile storeDir endpoint)
  | _ => true

def Keeps (wall : Nat) (endpoint : String) (s : Storage) (action : LifeAction) : Prop :=
  keeps wall endpoint s action = true

instance (wall : Nat) (endpoint : String) (s : Storage) (action : LifeAction) :
    Decidable (Keeps wall endpoint s action) := inferInstanceAs (Decidable (_ = _))

/-! ## Reports on their way to the file -/

/-- The reports with the states that are still to be saved of them, oldest
save first, and the reports that were saved. -/
inductive Awaits : List Json → List Json → List Json → Prop where
  | done (reports : List Json) : Awaits reports [] reports
  | pushed {reports : List Json} (before : Awaits reports pending saved) (p : Json) :
      Awaits (p :: reports) (pending ++ [stateOf (p :: reports)]) saved

variable {env : Env} {sessionTo : String} {wall unixNow : Nat} {s next : Storage} {action : Action}
  {endpoint : String} {reports pending saved : List Json} {state : Json} {dir : StateDir}
  {snapshots : List DeviceSnapshot} {id : UInt32} {dev : Device}

theorem Awaits.saved_eq (awaits : Awaits reports pending saved) :
    saved = reports.drop pending.length := by
  induction awaits with
  | done reports => rfl
  | pushed before p ih => simpa using ih

/-- The next save adds the report it was spawned for. -/
theorem Awaits.saved_next (awaits : Awaits reports (state :: pending) saved) :
    ∃ p, state = stateOf (p :: saved) ∧ Awaits reports pending (p :: saved) := by
  generalize all : state :: pending = waiting at awaits
  induction awaits generalizing pending with
  | done reports => cases all
  | @pushed earlier saved reports before p ih =>
    cases earlier with
    | nil =>
      cases all
      have same : saved = reports := before.saved_eq
      exact ⟨p, same ▸ rfl, same ▸ .done _⟩
    | cons first rest =>
      cases all
      obtain ⟨q, same, later⟩ := ih rfl
      exact ⟨q, same, later.pushed p⟩

theorem fileOf_eq_none (none_ : fileOf reports = none) : reports = [] := by
  cases reports with
  | nil => rfl
  | cons p older => cases none_

theorem Apart.sublist {fewer : List DeviceSnapshot} (apart : Apart snapshots)
    (sub : (fewer.map keys).Sublist (snapshots.map keys)) : Apart fewer := by
  have ids := sub.map Prod.fst
  have endpoints := sub.map Prod.snd
  rw [List.map_map, List.map_map] at ids endpoints
  exact ⟨apart.1.sublist ids, apart.2.sublist endpoints⟩

theorem apart_filter (apart : Apart snapshots) (test : DeviceSnapshot → Bool) :
    Apart (snapshots.filter test) :=
  apart.sublist (List.filter_sublist.map keys)

theorem apart_snapshot {r : DeviceRegistry} (keyed : Keyed r) (now : Instant) (nowUnix : Nat) :
    Apart (r.snapshot now nowUnix) := by
  rw [Apart, snapshot_map, List.map_map, List.map_map]
  exact ⟨Restarts.ids_nodup keyed,
    Restarts.nodup_of_ids keyed (·.endpoint) (Restarts.endpoint_determines keyed)⟩

/-- The registry file will be one that can be restored, now and after each save
that is to come. -/
structure Restorable (sessionTo : String) (wall : Nat) (s : Storage) : Prop where
  orderly : Orderly s.server.devices s.server.clock
  keyed : Keyed s.server.devices
  plain : ∀ name reg packet addr, s.server.recv = .register name reg packet addr → ':' ∉ name.toList
  apart : Apart (loadRegistry (s.unixNow wall) s.dir.registry.document)
  saves : ∀ snapshots, .saveRegistry snapshots ∈ s.jobs.flatten →
    Apart snapshots ∧ ∀ snap ∈ snapshots, ':' ∉ snap.endpoint.toList

/-- Only the registry and its file matter. -/
theorem Restorable.congr (restorable : Restorable sessionTo wall s) (server : next.server = s.server)
    (file : next.dir.registry = s.dir.registry)
    (saves : ∀ snapshots, .saveRegistry snapshots ∈ next.jobs.flatten →
      .saveRegistry snapshots ∈ s.jobs.flatten ∨ snapshots = s.snapshot wall) :
    Restorable sessionTo wall next where
  orderly := server ▸ restorable.orderly
  keyed := server ▸ restorable.keyed
  plain := server ▸ restorable.plain
  apart := by
    rw [unixNow, server, file]
    exact restorable.apart
  saves snapshots member := by
    rcases saves snapshots member with before | rfl
    · exact restorable.saves snapshots before
    · refine ⟨apart_snapshot restorable.keyed _ _, fun snap inside => ?_⟩
      rw [Storage.snapshot, snapshot_map] at inside
      obtain ⟨dev, held, rfl⟩ := List.mem_map.mp inside
      obtain ⟨id, stored⟩ := Table.mem_values.mp held
      exact restorable.orderly.plain id dev stored

/-- A step of the server spawns no save but that of a state. -/
private theorem jobs_leaves {before : Server} (left : Leaves s before action next) :
    next.server = s.server ∧ next.dir = s.dir ∧
      ∀ op ∈ next.jobs.flatten, op ∈ s.jobs.flatten ∨ ∃ name state, op = .saveDeviceState name state := by
  cases left with
  | merged =>
    refine ⟨rfl, rfl, fun op member => ?_⟩
    simp only [spawnJob, List.flatten_append, List.flatten_cons, List.flatten_nil, List.append_nil,
      List.mem_append, List.mem_singleton] at member
    exact member.imp_right fun same => ⟨_, _, same⟩
  | _ => exact ⟨rfl, rfl, fun op member => Or.inl member⟩

private theorem keyed_step {server after : Server} (keyed : Keyed server.devices)
    (ran : server.step env action = some after) : Keyed after.devices := by
  have made := GatewaySteps.registry_step ran
  cases called : GatewaySteps.registryCall server action with
  | none =>
    rw [called] at made
    exact Option.some.inj made ▸ keyed
  | some op =>
    rw [called] at made
    exact keyed_apply keyed made

/-- The device is the one before, with its state or with that of its file, which
it gets if it is listed. -/
def FromFile (included : List String) (loaded : List (String × Json)) (old dev : Device) : Prop :=
  dev.endpoint = old.endpoint ∧ ((dev.endpoint, dev.state) ∈ loaded ∨
    dev.state = old.state ∧ (dev.endpoint ∈ included → dev.endpoint ∉ loaded.map Prod.fst))

/-- One file: its device gets its state, the others keep theirs. -/
private theorem restored_one {r : DeviceRegistry} (sound : IndexesSound r) {name : String}
    (held : (r.restoreDeviceState name state).byId.lookup id = some dev) :
    ∃ old, r.byId.lookup id = some old ∧ dev.endpoint = old.endpoint ∧
      dev.state = if old.endpoint = name then state else old.state := by
  have ran : r.apply (.restoreDeviceState name state) = some (r.restoreDeviceState name state) := rfl
  rcases apply_record ran held with ⟨old, stored, record⟩ | ⟨_, _, _, _, other, _⟩
  · have endpoint := congrArg Record.endpoint record
    have merged := congrArg Record.state record
    have here : r.byEndpoint.lookup name = some id ↔ old.endpoint = name := by
      rw [sound.byEndpoint]
      constructor
      · rintro ⟨found, stored', own⟩
        rw [stored] at stored'
        exact Option.some.inj stored' ▸ own
      · exact fun own => ⟨old, stored, own⟩
    refine ⟨old, stored, ?_, ?_⟩
    · simp only [recordAfter] at endpoint
      split at endpoint <;> exact endpoint
    · simp only [recordAfter] at merged
      split at merged
      · rename_i index
        rw [if_pos (here.mp index)]
        exact merged
      · rename_i index
        rw [if_neg fun own => index (here.mpr own)]
        exact merged
  · cases other

private theorem loop_restores (included : List String) (loaded : List (String × Json))
    (acc : DeviceRegistry × StateDir) (sound : IndexesSound acc.1) :
    IndexesSound (loaded.foldl (restoreOrDelete included) acc).1 ∧
      ∀ id dev, (loaded.foldl (restoreOrDelete included) acc).1.byId.lookup id = some dev →
        ∃ old, acc.1.byId.lookup id = some old ∧ FromFile included loaded old dev := by
  induction loaded generalizing acc with
  | nil => exact ⟨sound, fun id dev held => ⟨dev, held, rfl, Or.inr ⟨rfl, fun _ => List.not_mem_nil⟩⟩⟩
  | cons entry rest ih =>
    obtain ⟨name, file⟩ := entry
    rw [List.foldl_cons]
    by_cases listed : name ∈ included
    · have step : restoreOrDelete included acc (name, file) =
          (acc.1.restoreDeviceState name file, acc.2) := if_pos listed
      rw [step]
      obtain ⟨sound', each⟩ := ih (acc.1.restoreDeviceState name file, acc.2)
        (indexes_quiet sound (quiet_restoreDeviceState name file))
      refine ⟨sound', fun id dev held => ?_⟩
      obtain ⟨middle, inside, same, source⟩ := each id dev held
      obtain ⟨old, stored, own, was⟩ := restored_one sound inside
      refine ⟨old, stored, same.trans own, ?_⟩
      rcases source with member | ⟨kept, unread⟩
      · exact Or.inl (List.mem_cons_of_mem _ member)
      · by_cases here : old.endpoint = name
        · rw [if_pos here] at was
          refine Or.inl (List.mem_cons.mpr (Or.inl (Prod.ext ?_ (kept.trans was))))
          exact (same.trans own).trans here
        · rw [if_neg here] at was
          refine Or.inr ⟨kept.trans was, fun listed member => ?_⟩
          rcases List.mem_cons.mp member with first | later
          · exact here ((same.trans own).symm.trans first)
          · exact unread listed later
    · have step : (restoreOrDelete included acc (name, file)).1 = acc.1 := by
        rw [restoreOrDelete, if_neg listed]
      obtain ⟨sound', each⟩ := ih (restoreOrDelete included acc (name, file)) (step ▸ sound)
      refine ⟨sound', fun id dev held => ?_⟩
      obtain ⟨old, stored, same, source⟩ := each id dev held
      rw [step] at stored
      refine ⟨old, stored, same, ?_⟩
      rcases source with member | ⟨kept, unread⟩
      · exact Or.inl (List.mem_cons_of_mem _ member)
      · refine Or.inr ⟨kept, fun inList member => ?_⟩
        rcases List.mem_cons.mp member with first | later
        · rw [first] at inList
          exact listed inList
        · exact unread inList later

section Started
variable {clock : Instant} (apart : Apart (loadRegistry unixNow dir.registry.document))
include apart

private theorem sound_restored (valid : DeviceSnapshot → Bool) :
    IndexesSound (DeviceRegistry.new.restore clock
      ((loadRegistry unixNow dir.registry.document).filter valid)) := by
  obtain ⟨ids, endpoints⟩ := apart_filter apart valid
  exact indexes_restore _ _ indexes_new ids endpoints fun snap _ => by simp [new]

/-- A device of a listed endpoint starts with the state of its file, and one
without a file with none. -/
theorem state_startUp (accepted : endpoint ≠ "") (kept : dir.state endpoint = none ∨
      endpoint ∈ loadIncluded dir.included.document ∧
        ¬ OrphanAt unixNow (loadIncluded dir.included.document) dir (stateFile storeDir endpoint))
    (held : (startUp sessionTo unixNow clock dir).1.byId.lookup id = some dev)
    (own : dev.endpoint = endpoint) (file : dir.state endpoint = fileOf reports) :
    dev.state = stateOf reports := by
  obtain ⟨old, stored, same, source⟩ := (loop_restores _ _ _ (sound_restored apart _)).2 id dev held
  rw [own] at source
  have empty : old.state = .obj [] := by
    obtain ⟨snap, -, -, rfl⟩ := Restarts.mem_of_byId_restored (apart_filter apart _).1 stored
    rfl
  -- what the check of the registry leaves of the endpoint's file
  have left : (dropOrphans sessionTo (loadIncluded dir.included.document)
      (loadRegistry unixNow dir.registry.document) dir).state endpoint =
        if OrphanAt unixNow (loadIncluded dir.included.document) dir (stateFile storeDir endpoint) then none
        else dir.state endpoint :=
    dropOrphans_content (loadable_stateFile endpoint) (stateFile_ne_registryFile endpoint)
  have read {state : Json} (member : (endpoint, state) ∈ loadedStates
      (dropOrphans sessionTo (loadIncluded dir.included.document)
        (loadRegistry unixNow dir.registry.document) dir)) :
      dir.state endpoint = some (some state) := by
    have found := (mem_loadedStates.mp member).2
    rw [left] at found
    split at found
    · cases found
    · exact found
  cases reports with
  | nil =>
    rcases source with member | ⟨kept, -⟩
    · rw [read member] at file
      cases file
    · exact kept.trans empty
  | cons p older =>
    obtain ⟨inList, spared⟩ := kept.resolve_left fun none_ => by
      rw [none_] at file
      cases file
    rcases source with member | ⟨-, unread⟩
    · rw [read member] at file
      exact Option.some.inj (Option.some.inj file)
    · refine absurd (List.mem_map.mpr ⟨(endpoint, stateOf (p :: older)), ?_, rfl⟩) (unread inList)
      exact mem_loadedStates.mpr ⟨accepted, (left.trans (if_neg spared)).trans file⟩

end Started

/-- What is merged was built from a payload. -/
private theorem building_step {server after : Server} {ipso : IpsoModel} {ts : Nat}
    (building : ∀ report addr, server.recv = .mergeReport report addr → Report report)
    (ran : server.step (envAt env ipso ts) action = some after) :
    ∀ report addr, after.recv = .mergeReport report addr → Report report := by
  intro report addr position
  by_cases recv : ∃ choice, action = .recv choice
  · obtain ⟨choice, rfl⟩ := recv
    have goes := RecvSteps.goes_recv ran
    rw [position] at goes
    generalize reached : Recv.mergeReport report addr = here at goes
    cases goes with
    | built _ made =>
      cases reached
      exact report_built made
    | @handle packet addr =>
      have other : ∀ report' addr', handlePacket (envAt env ipso ts) packet addr ≠
          .mergeReport report' addr' := by
        refine handlePacket_cases (fun recv => ∀ report' addr', recv ≠ .mergeReport report' addr')
          (envAt env ipso ts) packet addr ?_ ?_ ?_ ?_ ?_ ?_ <;> intros <;> nofun
      exact absurd reached.symm (other _ _)
    | @resume _ addr rest =>
      cases rest with
      | report payload =>
        simp only [AfterResponse.resume] at reached
        split at reached <;> cases reached
      | _ => cases reached
    | inside carries =>
      subst reached
      cases carries
    | _ => cases reached
  · rcases RecvSteps.recv_elsewhere ran fun choice same => recv ⟨choice, same⟩ with
      kept | ⟨-, packet, addr, goes⟩
    · exact building _ _ (kept ▸ position)
    · rw [goes] at position
      cases position

/-- A step of the server merges a report, or leaves all reports alone. -/
private theorem merges_or_not {server : Server} (stepped : s.server.step env action = some server)
    (left : Leaves { s with server } s.server action next) :
    (∃ choice report addr state, action = .recv choice ∧ s.server.recv = .mergeReport report addr ∧
      s.server.devices.mergeDeviceStateByAddr addr report = some (state, server.devices) ∧
      next.jobs = s.jobs ++ [[.saveDeviceState s.reporter state]] ∧
      next.reports = (s.reporter, report) :: s.reports) ∨
    (next.reports = s.reports ∧ next.jobs = s.jobs ∧
      ∀ choice report addr, action = .recv choice → s.server.recv ≠ .mergeReport report addr) := by
  cases left with
  | @merged report addr state devices choice position ran =>
    simp only [Server.step, Server.recvStep, position] at stepped
    obtain ⟨result, merged, stepped⟩ := Option.bind_eq_some_iff.mp stepped
    rw [ran] at merged
    cases merged
    cases stepped
    exact Or.inl ⟨choice, report, addr, state, rfl, position, ran, rfl, rfl⟩
  | nothing silent =>
    refine Or.inr ⟨rfl, rfl, ?_⟩
    rintro choice report addr rfl position
    simp only [Server.step, Server.recvStep, position,
      silent.merged choice report addr rfl position] at stepped
    cases stepped
  | asked position | removed position | reporter position =>
    refine Or.inr ⟨rfl, rfl, fun choice report addr _ other => ?_⟩
    rw [position] at other
    cases other
  | marked | persisted | reset =>
    refine Or.inr ⟨rfl, rfl, fun choice report addr other => ?_⟩
    cases other

/-- What a merged report does to the record of a device. -/
private theorem state_merged {server after : Server} {choice : Choice} {report : Json}
    {addr : SocketAddr} (position : server.recv = .mergeReport report addr)
    (ran : server.step env (.recv choice) = some after)
    (held : after.devices.byId.lookup id = some dev) :
    ∃ old, server.devices.byId.lookup id = some old ∧ dev.endpoint = old.endpoint ∧
      dev.state = if server.devices.byAddr.lookup addr = some id then old.state.merge report
        else old.state := by
  have made := GatewaySteps.registry_step ran
  simp only [GatewaySteps.registryCall, position, GatewaySteps.after] at made
  rcases apply_record made held with ⟨old, stored, record⟩ | ⟨_, _, _, _, other, _⟩
  · refine ⟨old, stored, ?_⟩
    simp only [recordAfter] at record
    split at record
    · rename_i index
      rw [if_pos index]
      exact ⟨congrArg Record.endpoint record, congrArg Record.state record⟩
    · rename_i index
      rw [if_neg index]
      exact ⟨congrArg Record.endpoint record, congrArg Record.state record⟩
  · cases other

/-- The reports are on their way to the file, and the records of the endpoint
have them. -/
structure Kept (endpoint : String) (s : Storage) : Prop where
  reports : ∀ p ∈ reported endpoint s, Report p
  building : ∀ report addr, s.server.recv = .mergeReport report addr → Report report
  awaits : Awaits (reported endpoint s) (awaiting endpoint s) (persisted endpoint s)
  savable : Savable s.dir endpoint
  file : s.dir.state endpoint = fileOf (persisted endpoint s)
  memory : ∀ id dev, s.server.devices.byId.lookup id = some dev → dev.endpoint = endpoint →
    dev.state = stateOf (reported endpoint s)

theorem Kept.nothing_reported (kept : Kept endpoint s) (nothing : nothingSaved endpoint s) :
    reported endpoint s = [] := by
  obtain ⟨absent, idle⟩ := Bool.and_eq_true_iff.mp nothing
  have file := kept.file
  rw [Option.isNone_iff_eq_none.mp absent] at file
  have none_ := fileOf_eq_none file.symm
  rw [persisted, List.isEmpty_iff.mp idle] at none_
  exact none_

section Kept
variable (kept : Kept endpoint s)
include kept

private theorem kept_quiet (same : reported endpoint next = reported endpoint s)
    (awaits : awaiting endpoint next = awaiting endpoint s) (dir : next.dir = s.dir)
    (building : ∀ report addr, next.server.recv = .mergeReport report addr → Report report)
    (memory : ∀ id dev, next.server.devices.byId.lookup id = some dev → dev.endpoint = endpoint →
      dev.state = stateOf (reported endpoint s)) : Kept endpoint next := by
  constructor
  · rw [same]
    exact kept.reports
  · exact building
  · rw [persisted, same, awaits]
    exact kept.awaits
  · rw [dir]
    exact kept.savable
  · rw [persisted, same, awaits, dir]
    exact kept.file
  · rw [same]
    exact memory

private theorem kept_merge {server : Server} {choice : Choice} {report : Json} {addr : SocketAddr}
    (keyed : Keyed s.server.devices) (position : s.server.recv = .mergeReport report addr)
    (allowed : recvKeeps endpoint s s.server.recv)
    (stepped : s.server.step env (.recv choice) = some server)
    (ran : s.server.devices.mergeDeviceStateByAddr addr report = some (state, server.devices))
    (building : ∀ report addr, server.recv = .mergeReport report addr → Report report)
    (same : next.server = server) (dir : next.dir = s.dir)
    (jobs : next.jobs = s.jobs ++ [[.saveDeviceState s.reporter state]])
    (reports : next.reports = (s.reporter, report) :: s.reports) : Kept endpoint next := by
  rw [position] at allowed
  have attributed : (renews s.server.devices addr).any (fun dev => dev.endpoint = endpoint) =
      decide (s.reporter = endpoint) := of_decide_eq_true allowed
  have states : awaiting endpoint next = awaiting endpoint s ++
      if s.reporter = endpoint then [state] else [] := by
    rw [awaiting, jobs, List.flatten_append, List.filterMap_append, awaiting]
    split <;> simp [stateFor, *]
  by_cases own : s.reporter = endpoint
  · -- the report is one of the endpoint, and its record has it now
    obtain ⟨dev, found, name⟩ := Option.any_eq_true .. |>.mp (attributed.trans (decide_eq_true own))
    obtain ⟨id, index, stored⟩ := Option.bind_eq_some_iff.mp found
    have name : dev.endpoint = endpoint := of_decide_eq_true name
    have merged : state = stateOf (report :: reported endpoint s) := by
      simp only [mergeDeviceStateByAddr, index, stored, Option.bind_eq_bind, Option.bind_some] at ran
      have now : dev.state.merge report = state := (Prod.mk.inj (Option.some.inj ran)).1
      rw [← now, kept.memory id dev stored name]
      rfl
    have all : reported endpoint next = report :: reported endpoint s := by
      rw [reported, reports, List.filterMap_cons, if_pos own, reported]
    rw [if_pos own, merged] at states
    have waits := kept.awaits.pushed report
    have saved : persisted endpoint next = persisted endpoint s := by
      rw [persisted, all, states]
      exact waits.saved_eq.symm
    constructor
    · rw [all]
      exact List.forall_mem_cons.mpr ⟨kept.building report addr position, kept.reports⟩
    · rw [same]
      exact building
    · rw [saved, all, states]
      exact waits
    · rw [dir]
      exact kept.savable
    · rw [saved, dir]
      exact kept.file
    · intro other found held named
      rw [same] at held
      obtain ⟨old, before, sameName, now⟩ := state_merged position stepped held
      have here := keyed.ownEndpoint other old before
      rw [← sameName, named, ← name, keyed.ownEndpoint id dev stored] at here
      cases here
      rw [if_pos index, kept.memory id old before (sameName.symm.trans named)] at now
      rw [all]
      exact now
  · -- the report is one of another endpoint, and so is the record at the address
    have elsewhere : awaiting endpoint next = awaiting endpoint s := by
      rw [states, if_neg own, List.append_nil]
    have all : reported endpoint next = reported endpoint s := by
      rw [reported, reports, List.filterMap_cons, if_neg own, reported]
    refine kept_quiet kept all elsewhere dir (same ▸ building) fun id found held named => ?_
    rw [same] at held
    obtain ⟨old, before, sameName, now⟩ := state_merged position stepped held
    have mine : old.endpoint = endpoint := sameName.symm.trans named
    have notHere : s.server.devices.byAddr.lookup addr ≠ some id := by
      intro index
      have there : renews s.server.devices addr = some old := by
        rw [renews, index]
        exact before
      rw [there, Option.any_some, decide_eq_true mine] at attributed
      exact own (of_decide_eq_true attributed.symm)
    rw [if_neg notHere, kept.memory id old before mine] at now
    exact now

private theorem kept_server {ipso : IpsoModel} {ts : Nat} (keyed : Keyed s.server.devices)
    (allowed : Keeps wall endpoint s (.storage ipso ts (.server action)))
    (ran : s.step (envAt env ipso ts) sessionTo wall (.server action) = some next) :
    Kept endpoint next := by
  obtain ⟨server, stepped, -, left⟩ := server_move ran
  obtain ⟨same, dir, -⟩ := jobs_leaves left
  have building := building_step kept.building stepped
  rcases merges_or_not stepped left with
    ⟨choice, report, addr, state, rfl, position, merged, jobs, reports⟩ | ⟨reports, jobs, notMerged⟩
  · exact kept_merge kept keyed position allowed stepped merged building same dir jobs reports
  · have all : reported endpoint next = reported endpoint s := by rw [reported, reports, reported]
    have states : awaiting endpoint next = awaiting endpoint s := by rw [awaiting, jobs, awaiting]
    refine kept_quiet kept all states dir (by rw [same]; exact building) fun id found held named => ?_
    rw [same] at held
    cases RecordSteps.record_move stepped held with
    | same stored record | registered _ _ _ stored record | renewed _ _ _ stored record =>
      injection record with _ sameName sameState
      exact sameState.trans (kept.memory id _ stored (sameName.symm.trans named))
    | added here position unknown new =>
      subst here new
      have allowed : recvKeeps endpoint s s.server.recv := allowed
      rw [position] at allowed
      have nothing : nothingSaved endpoint s := of_decide_eq_true allowed named (named ▸ unknown)
      rw [kept.nothing_reported nothing]
      rfl
    | merged here position => exact absurd position (notMerged _ _ _ here)

private theorem kept_tail {i : Nat} {order : List String}
    (ran : s.tailStep wall i order = some next) : Kept endpoint next := by
  obtain ⟨ops, spawned, jobs, server, dir, reports⟩ := tail_move ran
  have none_ : ops.filterMap (stateFor endpoint) = [] := by
    refine List.filterMap_eq_nil_iff.mpr fun op member => ?_
    cases spawned op member <;> rfl
  refine kept_quiet kept (by rw [reported, reports, reported]) ?_ dir ?_ ?_
  · rw [awaiting, jobs, List.filterMap_append, none_, List.append_nil, awaiting]
  · rw [server]
    exact kept.building
  · rw [server]
    exact kept.memory

/-- The oldest operation is done: a state of the endpoint is saved with its
newest report, and no other operation touches the file. -/
private theorem kept_run (allowed : (nextOp s 0).all (opKeeps endpoint s.dir))
    (ran : s.runStep sessionTo 0 = some next) : Kept endpoint next := by
  obtain ⟨op, rest, front, back, found, before, after, first, moved⟩ := run_move ran
  have server : next.server = s.server := by rw [moved]
  have all : reported endpoint next = reported endpoint s := by
    rw [moved]
    rfl
  have dir : next.dir = s.dir.apply sessionTo op := congrArg Storage.dir moved
  have savable : Savable next.dir endpoint := kept.savable.follows (dir ▸ follows_apply)
  rw [first rfl, List.nil_append] at before after
  rw [nextOp_of_found found] at allowed
  have waiting : awaiting endpoint s = (op :: back).filterMap (stateFor endpoint) := by
    rw [awaiting, before]
  have rests : awaiting endpoint next = back.filterMap (stateFor endpoint) := by
    rw [awaiting, after]
  cases own : stateFor endpoint op with
  | none =>
    have elsewhere : s.dir.target op ≠ some (stateFile storeDir endpoint) := by
      intro here
      have saves := of_decide_eq_true (Bool.and_eq_true_iff.mp allowed).1 here
      rw [own] at saves
      cases saves
    have states : awaiting endpoint next = awaiting endpoint s := by
      rw [rests, waiting, List.filterMap_cons, own]
    constructor
    · rw [all]
      exact kept.reports
    · rw [server]
      exact kept.building
    · rw [persisted, all, states]
      exact kept.awaits
    · exact savable
    · rw [persisted, all, states, dir, StateDir.state,
        content_apply_other (loadable_stateFile endpoint) elsewhere]
      exact kept.file
    · rw [server, all]
      exact kept.memory
  | some state =>
    obtain rfl : op = .saveDeviceState endpoint state := by
      cases op with
      | saveDeviceState name other =>
        obtain ⟨rfl, same⟩ := Option.ite_none_right_eq_some.mp own
        cases same
        rfl
      | _ => cases own
    have saves : awaiting endpoint s = state :: awaiting endpoint next := by
      rw [waiting, rests, List.filterMap_cons, own]
    have awaits := kept.awaits
    rw [saves] at awaits
    obtain ⟨p, rfl, later⟩ := awaits.saved_next
    have saved : persisted endpoint next = p :: persisted endpoint s := by
      rw [persisted, all]
      exact later.saved_eq.symm
    constructor
    · rw [all]
      exact kept.reports
    · rw [server]
      exact kept.building
    · rw [saved, all]
      exact later
    · exact savable
    · rw [saved, dir]
      exact state_saveDeviceState kept.savable
    · rw [server, all]
      exact kept.memory

end Kept

/-! ## Runs -/

/-- The state file of a listed endpoint is left as it is by a start. -/
private theorem file_startUp {clock : Instant} (kept : dir.state endpoint = none ∨
      endpoint ∈ loadIncluded dir.included.document ∧
        ¬ OrphanAt unixNow (loadIncluded dir.included.document) dir (stateFile storeDir endpoint)) :
    (startUp sessionTo unixNow clock dir).2.state endpoint = dir.state endpoint := by
  rcases kept with absent | ⟨inList, spared⟩
  · rw [absent]
    apply (startUp_fewer (loadable_stateFile endpoint) (stateFile_ne_registryFile endpoint)).elim id
    exact fun same => same.trans absent
  · exact startUp_state inList spared

private theorem kept_restart {clock : Instant} (seed : UInt32) (serverUri : Option String)
    (kept : Kept endpoint s) (idle : s.jobs = [])
    (apart : Apart (loadRegistry (wall + clock / 1000000000) s.dir.registry.document))
    (ready : s.dir.state endpoint = none ∨
      endpoint ∈ loadIncluded s.dir.included.document ∧ ¬ OrphanAt (wall + clock / 1000000000)
        (loadIncluded s.dir.included.document) s.dir (stateFile storeDir endpoint)) :
    Kept endpoint { started sessionTo wall seed serverUri clock s.dir with reports := s.reports } := by
  have saved : persisted endpoint s = reported endpoint s := by
    rw [persisted, awaiting, idle]
    rfl
  have file : s.dir.state endpoint = fileOf (reported endpoint s) := saved ▸ kept.file
  constructor
  · exact kept.reports
  · nofun
  · exact .done _
  · exact kept.savable.follows follows_startUp
  · exact (file_startUp ready).trans file
  · exact fun id dev held own => state_startUp apart kept.savable.accepted ready held own file

private theorem kept_step {action : LifeAction} (kept : Kept endpoint s)
    (restorable : Restorable sessionTo wall s) (allowed : Keeps wall endpoint s action)
    (ran : lifeStep env sessionTo wall s action = some next) :
    Kept endpoint next := by
  cases action with
  | restart seed serverUri clock =>
    simp only [lifeStep] at ran
    split at ran
    · rename_i ready
      cases ran
      have later : s.unixNow wall ≤ wall + clock / 1000000000 :=
        Nat.add_le_add_left (Nat.div_le_div_right ready.2) wall
      exact kept_restart seed serverUri kept (List.isEmpty_iff.mp ready.1)
        (restorable.apart.sublist (keys_later later)) (of_decide_eq_true allowed)
    · cases ran
  | storage ipso ts action =>
    change s.step (envAt env ipso ts) sessionTo wall action = some next at ran
    cases action with
    | server action => exact kept_server kept restorable.keyed allowed ran
    | tail i order => exact kept_tail kept ran
    | run index =>
      obtain ⟨first, keeps⟩ := of_decide_eq_true allowed
      subst first
      exact kept_run kept keeps ran

/-- A packet of the sensor arrives and is handled, and the save that this
leaves is spawned and done. -/
def handled (packet : Packet) (count : Nat) (reads : List StorageAction) : List LifeAction :=
  let actions : List StorageAction := (Peer.deliver packet count).map .server ++ reads ++ [.run 0]
  actions.map (.storage temperatureModel 1700000000)

def registers (tail : Nat) : List LifeAction := handled (Peer.post "rd" "sensor") 4 [.tail tail []]

end Lwm2mServer.KeptReports
