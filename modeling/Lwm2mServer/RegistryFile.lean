import Lwm2mServer.IncludedSet
import Lwm2mServer.RecordSteps
import Lwm2mServer.Restarts
import Lwm2mServer.StorageSteps

/-! The registry on disk. A registration and a deregistration end with a save
of the whole registry; a heartbeat does not, though it moves the end of the
registration it renews. The file has the right end of every registration as
long as no heartbeat moves one. -/
namespace Lwm2mServer.RegistryFile
open Library DeviceRegistry DeviceRecords RestartedRegistry Restarts StartUp StateDirectory
open Storage StorageSteps

variable {env : Env} {sessionTo : String} {wall : Nat} {s next : Storage} {action : Action}
  {file : Stored} {dev found : Device} {id : UInt32} {eol unixNow : Nat} {dir : StateDir}
  {snapshots : List DeviceSnapshot}

/-! ## Entries of the file -/

/-- The file has an entry of the device that ends at `eol`, in Unix seconds. -/
def HasEntry (file : Stored) (dev : Device) (eol : Nat) : Prop :=
  ∃ client ∈ entriesFor file dev.endpoint, (client.get "end_of_life").asU64 = some eol ∧
    UInt32.ofNat ((client.get "reg_id").asU64.getD 0) = dev.id

/-- The end of life is the expiry of the registration, up to the fraction of a
second that it leaves out. -/
def Ends (wall : Nat) (dev : Device) (eol : Nat) : Prop :=
  fromSecs eol < fromSecs wall + expiry dev + fromSecs 1 ∧
    fromSecs wall + expiry dev < fromSecs eol + fromSecs 1

/-- The file says of a device when its registration ends. -/
def Recorded (wall : Nat) (file : Stored) (dev : Device) : Prop :=
  ∃ eol, HasEntry file dev eol ∧ Ends wall dev eol

/-- From now on no two entries that are alive have the same id. -/
def Distinct (unixNow : Nat) (file : Stored) : Prop :=
  ∀ later, unixNow ≤ later → ((loadRegistry later file.document).map (·.id)).Nodup

theorem recorded_congr (recorded : Recorded wall file dev) (sameId : found.id = dev.id)
    (sameEndpoint : found.endpoint = dev.endpoint) (expires : expiry found = expiry dev) :
    Recorded wall file found := by
  obtain ⟨eol, ⟨client, member, ends, named⟩, before, after⟩ := recorded
  refine ⟨eol, ⟨client, sameEndpoint ▸ member, ends, sameId ▸ named⟩, ?_, ?_⟩
  · rw [expires]
    exact before
  · rw [expires]
    exact after

/-- What a loaded snapshot was read from. -/
private theorem fields_of_loaded {loaded : DeviceSnapshot}
    (member : loaded ∈ loadRegistry unixNow file.document) :
    unixNow < loaded.endOfLife ∧ loaded.lifetime = UInt32.ofNat (loaded.endOfLife - unixNow) ∧
      ∃ client ∈ entriesFor file loaded.endpoint,
        (client.get "end_of_life").asU64 = some loaded.endOfLife ∧
          UInt32.ofNat ((client.get "reg_id").asU64.getD 0) = loaded.id := by
  unfold loadRegistry at member
  split at member
  · rename_i clients found
    obtain ⟨client, inside, read⟩ := List.mem_filterMap.mp member
    obtain ⟨ep, named, read⟩ := Option.bind_eq_some_iff.mp read
    dsimp only at read
    split at read
    · cases read
    · rename_i alive
      cases read
      have entry : client ∈ entriesFor file (sgtinFromEp ep) := by
        rw [entriesFor, found, List.mem_filter, named]
        exact ⟨inside, decide_eq_true rfl⟩
      refine ⟨Nat.lt_of_not_le alive, rfl, client, entry, ?_, rfl⟩
      cases read : (client.get "end_of_life").asU64 with
      | none =>
        rw [read] at alive
        exact absurd (Nat.zero_le _) alive
      | some eol => rfl
  · cases member

/-- An entry that is alive is loaded. -/
private theorem loaded_of_entry (entry : HasEntry file dev eol) (alive : unixNow < eol) :
    ∃ loaded ∈ loadRegistry unixNow file.document,
      loaded.endpoint = dev.endpoint ∧ loaded.id = dev.id := by
  obtain ⟨client, member, ends, named⟩ := entry
  unfold entriesFor at member
  obtain ⟨inside, own⟩ := List.mem_filter.mp member
  obtain ⟨ep, text, same⟩ := Option.map_eq_some_iff.mp (of_decide_eq_true own)
  cases clients : file.document.bind fun doc => (doc.get "clients").asArray with
  | none =>
    rw [clients] at inside
    cases inside
  | some list =>
    rw [clients] at inside
    have read : ∃ loaded, loadClient unixNow client = some loaded ∧
        loaded.endpoint = dev.endpoint ∧ loaded.id = dev.id := by
      simp only [loadClient, text, ends, Option.getD_some, Option.bind_eq_bind, Option.bind_some,
        if_neg (Nat.not_le.mpr alive)]
      exact ⟨_, rfl, same, named⟩
    obtain ⟨loaded, read, own⟩ := read
    refine ⟨loaded, ?_, own⟩
    rw [loadRegistry, clients]
    exact List.mem_filterMap.mpr ⟨client, inside, read⟩

/-- What tells the entries of the file apart. -/
def keys (snap : DeviceSnapshot) : UInt32 × String := (snap.id, snap.endpoint)

private theorem sublist_filterMap {α β κ : Type} {list : List α} {find findMore : α → Option β}
    {label : β → κ} (more : ∀ a ∈ list, ∀ found, find a = some found →
      ∃ also, findMore a = some also ∧ label also = label found) :
    ((list.filterMap find).map label).Sublist ((list.filterMap findMore).map label) := by
  induction list with
  | nil => exact .slnil
  | cons a rest ih =>
    have tail := ih fun b member => more b (List.mem_cons_of_mem a member)
    rw [List.filterMap_cons, List.filterMap_cons]
    cases read : find a with
    | none =>
      cases findMore a with
      | none => exact tail
      | some also => exact tail.cons _
    | some found =>
      obtain ⟨also, same, labels⟩ := more a List.mem_cons_self found read
      rw [same, List.map_cons, List.map_cons, labels]
      exact tail.cons_cons _

/-- An entry that is alive later is alive now. -/
theorem keys_later {doc : Option Json} {later : Nat} (order : unixNow ≤ later) :
    ((loadRegistry later doc).map keys).Sublist ((loadRegistry unixNow doc).map keys) := by
  unfold loadRegistry
  split
  · refine sublist_filterMap fun client _ found read => ?_
    obtain ⟨ep, named, read⟩ := Option.bind_eq_some_iff.mp read
    dsimp only at read
    split at read
    · cases read
    · rename_i alive
      cases read
      simp only [loadClient, named, Option.bind_eq_bind, Option.bind_some,
        if_neg fun past => alive (Nat.le_trans past order)]
      exact ⟨_, rfl, rfl⟩
  · exact .slnil

theorem distinct_of_loaded (apart : ((loadRegistry unixNow file.document).map (·.id)).Nodup) :
    Distinct unixNow file := by
  intro later order
  have fewer : (((loadRegistry later file.document).map keys).map Prod.fst).Sublist _ :=
    (keys_later order).map Prod.fst
  rw [List.map_map, List.map_map] at fewer
  exact apart.sublist fewer

/-! ## Saving the registry -/

section Saved
variable (plain : ∀ snap ∈ snapshots, ':' ∉ snap.endpoint.toList)
  (bounded : ∀ snap ∈ snapshots, snap.endOfLife < 2 ^ 64)
include plain bounded

theorem hasEntry_saved {snap : DeviceSnapshot} (member : snap ∈ snapshots)
    (sameEndpoint : snap.endpoint = dev.endpoint) (sameId : snap.id = dev.id) :
    HasEntry (.json (saveRegistry sessionTo snapshots)) dev snap.endOfLife := by
  have clients : (saveRegistry sessionTo snapshots).get "clients" =
      .arr (snapshots.mapIdx (saveClient sessionTo)) := by
    simp [saveRegistry, Json.get, Json.object, Json.field_setField]
  obtain ⟨index, bound, rfl⟩ := List.mem_iff_getElem.mp member
  have fields : Fields (saveClient sessionTo index snapshots[index]) snapshots[index] :=
    fields_saveClient index
  refine ⟨saveClient sessionTo index snapshots[index], List.mem_filter.mpr ⟨?_, ?_⟩, ?_, ?_⟩
  · simp only [Stored.document, Option.bind_some, clients, Json.asArray, Option.getD_some]
    exact List.mem_mapIdx.mpr ⟨index, bound, rfl⟩
  · rw [fields.ep, ← sameEndpoint]
    exact decide_eq_true (congrArg some (sgtinFromEp_urn (plain _ member)))
  · rw [fields.endOfLife]
    exact asU64_ofNat (bounded _ member)
  · rw [fields.regId, ← sameId]
    exact storedId _

theorem distinct_saved (apart : (snapshots.map (·.id)).Nodup) :
    Distinct unixNow (.json (saveRegistry sessionTo snapshots)) := by
  intro later _
  have same : (loadRegistry later (Stored.json (saveRegistry sessionTo snapshots)).document).map
      (·.id) = (snapshots.filter fun snap => later < snap.endOfLife).map (·.id) := by
    rw [Stored.document, loadRegistry_saveRegistry plain bounded, List.map_map]
    rfl
  rw [same]
  exact apart.sublist (List.filter_sublist.map _)

end Saved

/-! ## Snapshots of the running server -/

/-- The devices are stored under their own ids, their endpoints can be read
back, and their registrations have begun. -/
structure Orderly (r : DeviceRegistry) (clock : Instant) : Prop where
  ownId : ∀ id dev, r.byId.lookup id = some dev → dev.id = id
  plain : ∀ id dev, r.byId.lookup id = some dev → ':' ∉ dev.endpoint.toList
  begun : ∀ id dev, r.byId.lookup id = some dev → dev.lastRegisteredAt ≤ clock

/-- The snapshot of one device. -/
def snapOf (now : Instant) (nowUnix : Nat) (dev : Device) : DeviceSnapshot :=
  let elapsed := UInt32.ofNat (elapsedSecs now dev.lastRegisteredAt)
  let remaining := if elapsed ≤ dev.lifetime then dev.lifetime - elapsed else 0
  { id := dev.id
    endpoint := dev.endpoint
    addr := dev.addr
    lifetime := remaining
    objects := dev.objects
    objectVersions := dev.objectVersions
    lwm2mVersion := dev.lwm2mVersion
    bindingMode := dev.bindingMode
    endOfLife := nowUnix + remaining.toNat }

theorem snapshot_map (r : DeviceRegistry) (now : Instant) (nowUnix : Nat) :
    r.snapshot now nowUnix = r.byId.values.map (snapOf now nowUnix) := rfl

/-- The registration has not been over for a whole second. -/
def Lasts (clock : Instant) (dev : Device) : Prop :=
  elapsedSecs clock dev.lastRegisteredAt ≤ dev.lifetime.toNat

instance (clock : Instant) (dev : Device) : Decidable (Lasts clock dev) :=
  inferInstanceAs (Decidable (_ ≤ _))

theorem endOfLife_snapOf {now : Instant} (lasts : Lasts now dev) :
    (snapOf now unixNow dev).endOfLife =
      unixNow + (dev.lifetime.toNat - elapsedSecs now dev.lastRegisteredAt) := by
  have passed : (UInt32.ofNat (elapsedSecs now dev.lastRegisteredAt)).toNat =
      elapsedSecs now dev.lastRegisteredAt := by
    rw [UInt32.toNat_ofNat']
    exact Nat.mod_eq_of_lt (Nat.lt_of_le_of_lt lasts dev.lifetime.toNat_lt)
  have within : UInt32.ofNat (elapsedSecs now dev.lastRegisteredAt) ≤ dev.lifetime := by
    rw [UInt32.le_iff_toNat_le, passed]
    exact lasts
  simp only [snapOf, if_pos within]
  rw [UInt32.toNat_sub_of_le _ _ within, passed]

/-- Whole seconds lose less than one. -/
private theorem within_second {wall since lifetime clock : Nat} (begun : since ≤ clock)
    (lasts : (clock - since) / 1000000000 ≤ lifetime) :
    (wall + clock / 1000000000 + (lifetime - (clock - since) / 1000000000)) * 1000000000 <
        wall * 1000000000 + (since + lifetime * 1000000000) + 1 * 1000000000 ∧
      wall * 1000000000 + (since + lifetime * 1000000000) <
        (wall + clock / 1000000000 + (lifetime - (clock - since) / 1000000000)) * 1000000000 +
          1 * 1000000000 := by
  omega

theorem ends_snapOf {clock : Instant} (begun : dev.lastRegisteredAt ≤ clock)
    (lasts : Lasts clock dev) :
    Ends wall dev (snapOf clock (wall + clock / 1000000000) dev).endOfLife := by
  rw [endOfLife_snapOf lasts]
  unfold Lasts at lasts
  simp only [Ends, expiry, fromSecs, elapsedSecs, elapsed] at lasts ⊢
  exact within_second begun lasts

theorem bounded_snapOf (dev : Device) (now : Instant) (small : unixNow < 2 ^ 63) :
    (snapOf now unixNow dev).endOfLife < 2 ^ 64 := by
  have below (lifetime : UInt32) : lifetime.toNat < 2 ^ 32 := lifetime.toNat_lt
  simp only [snapOf]
  have remaining := below (if UInt32.ofNat (elapsedSecs now dev.lastRegisteredAt) ≤ dev.lifetime
    then dev.lifetime - UInt32.ofNat (elapsedSecs now dev.lastRegisteredAt) else 0)
  omega

section Snapshot
variable {r : DeviceRegistry} {clock : Instant}

private theorem plain_snapshot (orderly : Orderly r clock) :
    ∀ snap ∈ r.snapshot clock (wall + clock / 1000000000), ':' ∉ snap.endpoint.toList := by
  intro snap member
  rw [snapshot_map] at member
  obtain ⟨dev, inside, rfl⟩ := List.mem_map.mp member
  obtain ⟨id, held⟩ := Table.mem_values.mp inside
  exact orderly.plain id dev held

private theorem bounded_snapshot (r : DeviceRegistry) (small : wall + clock / 1000000000 < 2 ^ 63) :
    ∀ snap ∈ r.snapshot clock (wall + clock / 1000000000), snap.endOfLife < 2 ^ 64 := by
  intro snap member
  rw [snapshot_map] at member
  obtain ⟨dev, -, rfl⟩ := List.mem_map.mp member
  exact bounded_snapOf dev clock small

variable (orderly : Orderly r clock) (small : wall + clock / 1000000000 < 2 ^ 63)
include orderly small

/-- A registration that lasts is recorded by a save. -/
theorem recorded_snapshot (held : r.byId.lookup id = some dev) (lasts : Lasts clock dev) :
    Recorded wall (.json (saveRegistry sessionTo (r.snapshot clock (wall + clock / 1000000000)))) dev := by
  have member : snapOf clock (wall + clock / 1000000000) dev ∈
      r.snapshot clock (wall + clock / 1000000000) := by
    rw [snapshot_map]
    exact List.mem_map_of_mem (Table.mem_values.mpr ⟨id, held⟩)
  exact ⟨_, hasEntry_saved (plain_snapshot orderly) (bounded_snapshot r small) member
    rfl rfl, ends_snapOf (orderly.begun id dev held) lasts⟩

theorem distinct_snapshot : Distinct unixNow
    (.json (saveRegistry sessionTo (r.snapshot clock (wall + clock / 1000000000)))) := by
  refine distinct_saved (plain_snapshot orderly) (bounded_snapshot r small) ?_
  have keys : (r.snapshot clock (wall + clock / 1000000000)).map (·.id) = r.byId.keys := by
    rw [snapshot_map, List.map_map, Table.values, List.map_map, AList.keys, List.keys]
    refine List.map_congr_left fun entry member => ?_
    exact orderly.ownId entry.1 entry.2 (AList.mem_lookup_iff.mpr member)
  rw [keys]
  exact r.byId.keys_nodup

end Snapshot

/-! ## Restarts -/

/-- **A device with an entry that is alive is restored.** -/
theorem restored_of_entry {later : Nat} (sessionTo : String) (now : Instant)
    (entry : HasEntry dir.registry dev eol) (apart : Distinct unixNow dir.registry)
    (order : unixNow ≤ later) (alive : later < eol)
    (listed : dev.endpoint ∈ loadIncluded dir.included.document) :
    ∃ found, (startUp sessionTo later now dir).1.byId.lookup dev.id = some found ∧
      found.endpoint = dev.endpoint := by
  obtain ⟨loaded, member, sameEndpoint, sameId⟩ := loaded_of_entry entry alive
  have valid : loaded ∈ (loadRegistry later dir.registry.document).filter fun s =>
      s.endpoint ∈ (readList dir.included).getD [] :=
    List.mem_filter.mpr ⟨member, decide_eq_true (sameEndpoint ▸ listed)⟩
  have distinct : (((loadRegistry later dir.registry.document).filter fun s =>
      s.endpoint ∈ (readList dir.included).getD []).map (·.id)).Nodup :=
    (apart later order).sublist (List.filter_sublist.map _)
  have restored := startUp_byId sessionTo later now dir loaded.id
  rw [byId_restored_of_mem now distinct valid, sameId] at restored
  obtain ⟨found, held, same⟩ := Option.map_eq_some_iff.mp restored
  have endpoint : found.endpoint = loaded.endpoint := congrArg Device.endpoint same
  exact ⟨found, held, endpoint.trans sameEndpoint⟩

/-! ## What is outstanding -/

/-- A task that will still take the snapshots. -/
def takesSnapshots : Tail → Bool
  | .registry _ | .exclusion _ | .excluded .. => true
  | _ => false

def Owed (s : Storage) : Prop := ∃ tail ∈ s.tails.all, takesSnapshots tail

/-- The receive loop has registered an endpoint and has not yet come to the
save. -/
def registering : Recv → Option String
  | .respond _ _ (.decideInclusion endpoint) | .askIncluded endpoint _ => some endpoint
  | _ => none

/-- The registry file once all that is spawned is done. -/
def flushed (sessionTo : String) (s : Storage) : Stored :=
  (s.jobs.flatten.foldl (StateDir.apply sessionTo) s.dir).registry

/-- All saves have finished, and none is about to be spawned. -/
def Settled (s : Storage) : Prop :=
  s.jobs = [] ∧ ¬ Owed s ∧ registering s.server.recv = none

def Included (s : Storage) (dev : Device) : Prop := dev.endpoint ∈ s.server.boot.included

instance (s : Storage) (dev : Device) : Decidable (Included s dev) :=
  inferInstanceAs (Decidable (_ ∈ _))

/-- Every registered device that is included has an entry that ends when its
registration does, and a restart before that end restores the device. -/
def KeepsUp (sessionTo : String) (wall : Nat) (s : Storage) : Prop :=
  Settled s → ∀ id dev, s.server.devices.byId.lookup id = some dev → Included s dev →
    ∃ eol, HasEntry s.dir.registry dev eol ∧ Ends wall dev eol ∧
      ∀ clock, s.server.clock ≤ clock → wall + clock / 1000000000 < eol →
        dev.endpoint ∈ loadIncluded s.dir.included.document →
        ∃ found, (startUp sessionTo (wall + clock / 1000000000) clock s.dir).1.byId.lookup dev.id =
          some found ∧ found.endpoint = dev.endpoint

/-- The device a heartbeat from an address renews. -/
def renews (r : DeviceRegistry) (addr : SocketAddr) : Option Device :=
  (r.byAddr.lookup addr).bind fun id => r.byId.lookup id

/-- The device a registration of an endpoint refreshes. -/
def refreshes (r : DeviceRegistry) (endpoint : String) : Option Device :=
  (r.byEndpoint.lookup endpoint).bind fun id => r.byId.lookup id

/-- The receive loop changes no registration of an included device without
going on to a save: a heartbeat leaves its end where it is, a registration
refreshes the record of the endpoint it names, and its response goes out. Nor is
a report saved under a name that leads to the registry. -/
def recvSaves (env : Env) (s : Storage) (choice : Choice) : Recv → Bool
  | .renew newLifetime addr => (renews s.server.devices addr).all fun dev => Included s dev →
    s.server.clock + fromSecs (newLifetime.getD dev.lifetime).toNat = expiry dev
  | .register endpoint _ _ _ => (refreshes s.server.devices endpoint).all fun dev => Included s dev →
    dev.endpoint = endpoint
  | .respond response _ (.decideInclusion endpoint) => endpoint ∈ s.server.boot.included →
    Server.sends env response choice
  | .mergeReport _ _ => s.dir.savesTo s.reporter ≠ some registryFile
  | _ => true

/-- A change of the registrations of included devices is followed by a save of
them as they are: besides what the receive loop does, no device becomes
included while it is registered, none is past its end when the snapshots are
taken, and the saves are done in the order they were spawned. -/
def saves (env : Env) (wall : Nat) (s : Storage) : StorageAction → Bool
  | .server (.recv choice) => recvSaves env s choice s.server.recv
  | .server (.phase i _) => (s.server.phases.get? i).all fun task => match task.pc with
    | .mark => ∀ dev ∈ s.server.devices.byId.values, dev.endpoint ≠ task.endpoint
    | _ => true
  | .tail i _ => (s.tails.get? i).all fun tail => takesSnapshots tail → s.unixNow wall < 2 ^ 63 ∧
    ∀ dev ∈ s.server.devices.byId.values, Included s dev → Lasts s.server.clock dev
  | .run index => index = 0
  | _ => true

def Saves (env : Env) (wall : Nat) (s : Storage) (action : StorageAction) : Prop :=
  saves env wall s action = true

instance (env : Env) (wall : Nat) (s : Storage) (action : StorageAction) :
    Decidable (Saves env wall s action) := inferInstanceAs (Decidable (_ = _))

/-- The registry file is one that `save_registry` may have left: ids are used
once, and no registration lasts longer than its type allows. -/
structure WellFormed (unixNow : Nat) (file : Stored) : Prop where
  distinct : ((loadRegistry unixNow file.document).map (·.id)).Nodup
  near : ∀ snap ∈ loadRegistry unixNow file.document, snap.endOfLife < unixNow + 2 ^ 32

/-- The server as it starts on such a file. -/
def machine (env : Env) (sessionTo : String) (wall : Nat) : Machine Storage StorageAction where
  start s := ∃ seed serverUri clock dir, WellFormed (wall + clock / 1000000000) dir.registry ∧
    s = started sessionTo wall seed serverUri clock dir
  step := step env sessionTo wall

/-- The registry is in order, and every included device is recorded in what
the file will be, unless its registration is about to be saved. -/
structure Current (sessionTo : String) (wall : Nat) (s : Storage) : Prop where
  orderly : Orderly s.server.devices s.server.clock
  plain : ∀ endpoint reg packet addr, s.server.recv = .register endpoint reg packet addr →
    ':' ∉ endpoint.toList
  distinct : Distinct (s.unixNow wall) (flushed sessionTo s)
  recorded : ∀ id dev, s.server.devices.byId.lookup id = some dev → Included s dev →
    Owed s ∨ registering s.server.recv = some dev.endpoint ∨ Recorded wall (flushed sessionTo s) dev

/-! ## Steps of the saves -/

private theorem flushed_spawn (s : Storage) {ops : List DiskOp} (jobs : next.jobs = s.jobs ++ [ops])
    (dir : next.dir = s.dir) :
    flushed sessionTo next = (ops.foldl (StateDir.apply sessionTo)
      (s.jobs.flatten.foldl (StateDir.apply sessionTo) s.dir)).registry := by
  rw [flushed, jobs, dir, List.flatten_append, List.foldl_append, List.flatten_singleton]

/-- A task that saves the registry last leaves it as it was saved. -/
private theorem flushed_written (s : Storage) {ops : List DiskOp} (jobs : next.jobs = s.jobs ++ [ops])
    (dir : next.dir = s.dir) (last : ops.getLast? = some (.saveRegistry snapshots)) :
    flushed sessionTo next = .json (saveRegistry sessionTo snapshots) := by
  obtain ⟨before, rfl⟩ := List.getLast?_eq_some_iff.mp last
  rw [flushed_spawn s jobs dir, List.foldl_concat]
  exact registry_writeRegistry

/-- An operation that goes elsewhere leaves the registry file as it will be. -/
private theorem flushed_other (s : Storage) {op : DiskOp} (jobs : next.jobs = s.jobs ++ [[op]])
    (dir : next.dir = s.dir)
    (elsewhere : (s.jobs.flatten.foldl (StateDir.apply sessionTo) s.dir).target op ≠ some registryFile) :
    flushed sessionTo next = flushed sessionTo s := by
  apply (flushed_spawn s jobs dir).trans
  apply registry_of_content
  exact content_apply_other loadable_registryFile elsewhere

private theorem flushed_run (ran : s.runStep sessionTo 0 = some next) :
    flushed sessionTo next = flushed sessionTo s := by
  obtain ⟨op, rest, front, back, -, before, after, first, moved⟩ := run_move ran
  have dir : next.dir = s.dir.apply sessionTo op := congrArg Storage.dir moved
  rw [flushed, flushed, before, after, first rfl, dir]
  rfl

private theorem current_run (current : Current sessionTo wall s)
    (ran : s.runStep sessionTo 0 = some next) : Current sessionTo wall next := by
  have file := flushed_run ran
  obtain ⟨op, rest, front, back, -, -, -, -, moved⟩ := run_move ran
  have server : next.server = s.server := by rw [moved]
  have tails : next.tails = s.tails := by rw [moved]
  constructor
  · rw [server]
    exact current.orderly
  · rw [server]
    exact current.plain
  · rw [file, unixNow, server]
    exact current.distinct
  · rw [file, Owed, tails]
    unfold Included
    rw [server]
    exact current.recorded

/-- The snapshots are taken: all registrations are recorded. -/
private theorem current_taken (current : Current sessionTo wall s)
    (small : s.unixNow wall < 2 ^ 63)
    (lasts : ∀ dev ∈ s.server.devices.byId.values, Included s dev → Lasts s.server.clock dev)
    (server : next.server = s.server)
    (file : flushed sessionTo next = .json (saveRegistry sessionTo (s.snapshot wall))) :
    Current sessionTo wall next := by
  constructor
  · rw [server]
    exact current.orderly
  · rw [server]
    exact current.plain
  · rw [file]
    exact distinct_snapshot current.orderly small
  · intro id dev held included
    rw [server] at held
    rw [Included, server] at included
    rw [file]
    refine Or.inr (Or.inr (recorded_snapshot current.orderly small held ?_))
    exact lasts dev (Table.mem_values.mpr ⟨id, held⟩) included

private theorem owed_update {tails : Tasks Tail} {i : Nat} {old new : Tail}
    (held : tails.get? i = some old) (silent : takesSnapshots old → takesSnapshots new)
    (owed : ∃ tail ∈ tails.all, takesSnapshots tail) :
    ∃ tail ∈ (tails.update i new).all, takesSnapshots tail := by
  obtain ⟨tail, member, takes⟩ := owed
  obtain ⟨j, found⟩ := List.mem_iff_getElem?.mp member
  have moved := tails.get?_update held new
  by_cases same : j = i
  · subst same
    have here : tail = old := Option.some.inj (found.symm.trans held)
    exact ⟨new, List.mem_of_getElem? ((moved j).trans (if_pos rfl)), silent (here ▸ takes)⟩
  · exact ⟨tail, List.mem_of_getElem? (((moved j).trans (if_neg same)).trans found), takes⟩

private theorem current_tail {i : Nat} {order : List String} (current : Current sessionTo wall s)
    (allowed : Saves env wall s (.tail i order)) (ran : s.tailStep wall i order = some next) :
    Current sessionTo wall next := by
  -- a read of the included list leaves the registry file and the registry alone
  have quiet (server : next.server = s.server)
      (file : flushed sessionTo next = flushed sessionTo s) (owed : Owed s → Owed next) :
      Current sessionTo wall next := by
    constructor
    · rw [server]
      exact current.orderly
    · rw [server]
      exact current.plain
    · rw [file, unixNow, server]
      exact current.distinct
    · intro id dev held included
      rw [server] at held ⊢
      rw [Included, server] at included
      rw [file]
      rcases current.recorded id dev held included with owes | rest
      · exact Or.inl (owed owes)
      · exact Or.inr rest
  cases tail_cases ran with
  | registry held | excluded held =>
    simp only [Saves, saves, held, Option.all_some, decide_eq_true_eq] at allowed
    obtain ⟨small, lasts⟩ := allowed rfl
    exact current_taken current small lasts rfl (flushed_written s rfl rfl rfl)
  | included held =>
    refine quiet rfl (flushed_other s rfl rfl ?_) (owed_update held fun takes => by cases takes)
    exact fun same => absurd (Option.some.inj same) (by decide)
  | exclusion held => exact quiet rfl rfl (owed_update held fun _ => rfl)

/-! ## Steps of the server -/

/-- What a step of the server leaves to be saved does not change what the
registry file will be. -/
private theorem flushed_leaves {before : Server} (left : Leaves s before action next)
    (elsewhere : ∀ choice report addr, action = .recv choice → before.recv = .mergeReport report addr →
      s.dir.savesTo s.reporter ≠ some registryFile) :
    flushed sessionTo next = flushed sessionTo s := by
  cases left with
  | merged position =>
    refine flushed_other s rfl rfl ?_
    rw [StateDir.target, savesTo_foldl]
    exact elsewhere _ _ _ rfl position
  | _ => rfl

/-- No task that will take the snapshots goes away. -/
private theorem kept_leaves {before : Server} (left : Leaves s before action next) :
    next.server = s.server ∧ (Owed s → Owed next) := by
  have grow (new : Tail) : Owed s → Owed (s.spawnTail new) := fun ⟨tail, member, takes⟩ =>
    ⟨tail, List.mem_append_left _ member, takes⟩
  cases left with
  | nothing | reporter | merged => exact ⟨rfl, fun owed => owed⟩
  | asked | removed => exact ⟨rfl, grow (.registry _)⟩
  | marked | persisted | reset => exact ⟨rfl, grow _⟩

section Server
variable {server after : Server}

theorem orderly_step (orderly : Orderly server.devices server.clock)
    (named : ∀ endpoint reg packet addr, server.recv = .register endpoint reg packet addr →
      ':' ∉ endpoint.toList)
    (ran : server.step env action = some after) : Orderly after.devices after.clock := by
  have later := RecvSteps.clock_step ran
  have each (id : UInt32) (found : Device) (held : after.devices.byId.lookup id = some found) :
      found.id = id ∧ ':' ∉ found.endpoint.toList ∧ found.lastRegisteredAt ≤ after.clock := by
    cases RecordSteps.record_move ran held with
    | same stored kept | merged _ _ _ stored kept =>
      injection kept with sameId sameEndpoint _ since _
      refine ⟨sameId.trans (orderly.ownId _ _ stored), ?_, ?_⟩
      · rw [sameEndpoint]
        exact orderly.plain _ _ stored
      · rw [since]
        exact Nat.le_trans (orderly.begun _ _ stored) later
    | added _ position _ new =>
      subst new
      exact ⟨rfl, named _ _ _ _ position, later⟩
    | registered _ _ _ stored kept | renewed _ _ _ stored kept =>
      injection kept with sameId sameEndpoint _ since _
      refine ⟨sameId.trans (orderly.ownId _ _ stored), ?_, ?_⟩
      · rw [sameEndpoint]
        exact orderly.plain _ _ stored
      · rw [since]
        exact later
  exact ⟨fun id found held => (each id found held).1, fun id found held => (each id found held).2.1,
    fun id found held => (each id found held).2.2⟩

theorem named_step
    (named : ∀ endpoint reg packet addr, server.recv = .register endpoint reg packet addr →
      ':' ∉ endpoint.toList)
    (ran : server.step env action = some after) :
    ∀ endpoint reg packet addr, after.recv = .register endpoint reg packet addr →
      ':' ∉ endpoint.toList := by
  intro endpoint reg packet addr position
  by_cases recv : ∃ choice, action = .recv choice
  · obtain ⟨choice, rfl⟩ := recv
    have goes := RecvSteps.goes_recv ran
    generalize here : after.recv = reached at goes
    rw [here] at position
    cases goes with
    | handle =>
      rw [RecvSteps.endpoint_of_register position]
      exact plain_sgtinFromEp _
    | @resume _ addr rest =>
      cases rest with
      | report payload =>
        simp only [AfterResponse.resume] at position
        split at position <;> cases position
      | _ => cases position
    | inside carries =>
      rw [position] at carries
      cases carries
    | _ => cases position
  · rcases RecvSteps.recv_elsewhere ran fun choice same => recv ⟨choice, same⟩ with
      kept | ⟨-, packet, addr, goes⟩
    · exact named _ _ _ _ (kept ▸ position)
    · rw [goes] at position
      cases position

private theorem registering_register {choice : Choice} {endpoint : String} {reg : Registration}
    {packet : Packet} {addr : SocketAddr} (position : server.recv = .register endpoint reg packet addr)
    (ran : server.step env (.recv choice) = some after) : registering after.recv = some endpoint := by
  simp only [Server.step, Server.recvStep, position] at ran
  obtain ⟨result, -, ran⟩ := Option.bind_eq_some_iff.mp ran
  cases ran
  rfl

end Server

section Step
variable {server : Server} (stepped : s.server.step env action = some server)
  (allowed : Saves env wall s (.server action))
include stepped allowed

/-- A device that is included was included before: no device is marked while
it is registered. -/
private theorem included_before (held : server.devices.byId.lookup id = some found)
    (included : found.endpoint ∈ server.boot.included) : Included s found := by
  rcases IncludedSet.included_step stepped with kept | ⟨i, choice, task, rfl, running, pc, grown⟩ |
    ⟨i, -, fewer⟩
  · rw [kept] at included
    exact included
  · rw [grown] at included
    refine Finset.mem_of_mem_insert_of_ne included ?_
    cases RecordSteps.record_move stepped held with
    | @same dev stored kept =>
      injection kept with _ sameEndpoint
      rw [sameEndpoint]
      simp only [Saves, saves, running, Option.all_some, pc, decide_eq_true_eq] at allowed
      exact allowed dev (Table.mem_values.mpr ⟨id, stored⟩)
    | added here | registered here | renewed here | merged here => cases here
  · exact fewer included

/-- A registration that is not about to be saved ends when it did before. -/
private theorem term_before (held : server.devices.byId.lookup id = some found)
    (included : Included s found) :
    registering server.recv = some found.endpoint ∨
      ∃ dev, s.server.devices.byId.lookup id = some dev ∧ found.id = dev.id ∧
        found.endpoint = dev.endpoint ∧ expiry found = expiry dev := by
  cases RecordSteps.record_move stepped held with
  | @same dev stored kept | @merged _ _ _ dev _ _ _ stored kept =>
    injection kept with sameId sameEndpoint _ since lifetime
    refine Or.inr ⟨dev, stored, sameId, sameEndpoint, ?_⟩
    rw [expiry, since, lifetime]
    rfl
  | added here position _ new =>
    subst here new
    exact Or.inl (registering_register position stepped)
  | @registered _ endpoint _ _ _ dev here position index stored kept =>
    subst here
    injection kept with _ sameEndpoint
    have refreshed : refreshes s.server.devices endpoint = some dev := by
      rw [refreshes, index]
      exact stored
    simp only [Saves, saves, recvSaves, position, refreshed, Option.all_some,
      decide_eq_true_eq] at allowed
    have own : dev.endpoint = endpoint := by
      apply allowed
      rw [Included, sameEndpoint] at included
      exact included
    refine Or.inl ?_
    rw [registering_register position stepped, sameEndpoint]
    exact congrArg some own.symm
  | @renewed _ newLifetime addr dev here position index stored kept =>
    subst here
    injection kept with sameId sameEndpoint _ since lifetime
    have renewed : renews s.server.devices addr = some dev := by
      rw [renews, index]
      exact stored
    simp only [Saves, saves, recvSaves, position, renewed, Option.all_some,
      decide_eq_true_eq] at allowed
    refine Or.inr ⟨dev, stored, sameId, sameEndpoint, ?_⟩
    rw [expiry, since, lifetime]
    apply allowed
    rw [Included, sameEndpoint] at included
    exact included

/-- A registration that is about to be saved stays so until the task that
takes the snapshots is there. -/
private theorem registering_step {endpoint : String}
    (position : registering s.server.recv = some endpoint)
    (included : endpoint ∈ s.server.boot.included)
    (left : Leaves { s with server } s.server action next) :
    registering next.server.recv = some endpoint ∨ Owed next := by
  have reached : next.server = server := (kept_leaves left).1
  rw [reached]
  by_cases recv : ∃ choice, action = .recv choice
  · obtain ⟨choice, rfl⟩ := recv
    cases here : s.server.recv with
    | respond response addr rest =>
      rw [here] at position
      cases rest with
      | decideInclusion e =>
        cases position
        simp only [Saves, saves, recvSaves, here, decide_eq_true_eq] at allowed
        simp only [Server.step, Server.recvStep, here, if_pos (allowed included)] at stepped
        cases stepped
        exact Or.inl rfl
      | _ => cases position
    | askIncluded e addr =>
      rw [here] at position
      cases position
      cases left with
      | nothing silent =>
        have refused := silent.asked choice endpoint addr rfl here
        simp [BootstrapRegistry.isIncluded, included] at refused
      | asked position =>
        exact Or.inr ⟨_, List.mem_append_right _ (List.mem_singleton_self _), rfl⟩
      | removed other | reporter other | merged other =>
        rw [here] at other
        cases other
    | _ =>
      rw [here] at position
      cases position
  · rcases RecvSteps.recv_elsewhere stepped fun choice same => recv ⟨choice, same⟩ with
      kept | ⟨idle, -⟩
    · rw [kept]
      exact Or.inl position
    · rw [idle] at position
      cases position

end Step

private theorem current_server (current : Current sessionTo wall s)
    (allowed : Saves env wall s (.server action))
    (ran : s.step env sessionTo wall (.server action) = some next) : Current sessionTo wall next := by
  obtain ⟨server, stepped, -, left⟩ := server_move ran
  obtain ⟨reached, owed⟩ := kept_leaves left
  have file : flushed sessionTo next = flushed sessionTo { s with server } := by
    refine flushed_leaves left fun choice report addr recv position => ?_
    subst recv
    simp only [Saves, saves, recvSaves, position, decide_eq_true_eq] at allowed
    exact allowed
  constructor
  · rw [reached]
    exact orderly_step current.orderly current.plain stepped
  · rw [reached]
    exact named_step current.plain stepped
  · intro later order
    rw [file]
    apply current.distinct later
    have passed : s.server.clock ≤ server.clock := RecvSteps.clock_step stepped
    rw [unixNow, reached] at order
    exact Nat.le_trans (Nat.add_le_add_left (Nat.div_le_div_right passed) wall) order
  · intro id found held included
    rw [reached] at held
    rw [Included, reached] at included
    have before := included_before stepped allowed held included
    rw [file]
    rcases term_before stepped allowed held before with registers | ⟨dev, stored, sameId, sameEndpoint, expires⟩
    · rw [reached]
      exact Or.inr (Or.inl registers)
    · have listed : Included s dev := by
        rw [Included, ← sameEndpoint]
        exact before
      rcases current.recorded id dev stored listed with owes | registers | recorded
      · exact Or.inl (owed owes)
      · rw [sameEndpoint]
        rcases registering_step stepped allowed registers listed left with still | spawned
        · exact Or.inr (Or.inl still)
        · exact Or.inl spawned
      · exact Or.inr (Or.inr (recorded_congr recorded sameId sameEndpoint expires))

/-! ## Runs -/

/-- The devices the server starts with are those of the entries. -/
private theorem restored_from {now : Instant} (apart : ((loadRegistry unixNow dir.registry.document).map (·.id)).Nodup)
    (held : (startUp sessionTo unixNow now dir).1.byId.lookup id = some dev) :
    ∃ snap ∈ (loadRegistry unixNow dir.registry.document).filter fun s =>
      s.endpoint ∈ (readList dir.included).getD [], snap.id = id ∧
        unreported dev = restoredDevice now snap := by
  have same := startUp_byId sessionTo unixNow now dir id
  rw [held, Option.map_some] at same
  obtain ⟨found, restored, equal⟩ := Option.map_eq_some_iff.mp same.symm
  obtain ⟨snap, member, own, rfl⟩ :=
    mem_of_byId_restored (apart.sublist (List.filter_sublist.map _)) restored
  exact ⟨snap, member, own, equal.symm⟩

/-- What the server starts with is in order. -/
theorem orderly_started (clock : Instant)
    (apart : ((loadRegistry unixNow dir.registry.document).map (·.id)).Nodup) :
    Orderly (startUp sessionTo unixNow clock dir).1 clock := by
  have each (id : UInt32) (dev : Device)
      (held : (startUp sessionTo unixNow clock dir).1.byId.lookup id = some dev) :
      dev.id = id ∧ ':' ∉ dev.endpoint.toList ∧ dev.lastRegisteredAt ≤ clock := by
    obtain ⟨snap, member, own, same⟩ := restored_from apart held
    have sameId : dev.id = snap.id := congrArg Device.id same
    have sameEndpoint : dev.endpoint = snap.endpoint := congrArg Device.endpoint same
    have since : dev.lastRegisteredAt = clock := congrArg Device.lastRegisteredAt same
    refine ⟨sameId.trans own, ?_, Nat.le_of_eq since⟩
    rw [sameEndpoint]
    exact plain_of_loaded (List.mem_of_mem_filter member)
  exact ⟨fun id dev held => (each id dev held).1, fun id dev held => (each id dev held).2.1,
    fun id dev held => (each id dev held).2.2⟩

private theorem ends_restored {clock : Instant} (alive : wall + clock / 1000000000 < eol) (near : eol < wall + clock / 1000000000 + 2 ^ 32)
    (since : dev.lastRegisteredAt = clock)
    (lifetime : dev.lifetime = UInt32.ofNat (eol - (wall + clock / 1000000000))) : Ends wall dev eol := by
  have seconds : dev.lifetime.toNat = eol - (wall + clock / 1000000000) := by
    rw [lifetime, UInt32.toNat_ofNat']
    exact Nat.mod_eq_of_lt (by omega)
  rw [Ends, expiry, since, seconds]
  simp only [fromSecs]
  omega

private theorem asU64_lt {value : Json} {n : Nat} (read : value.asU64 = some n) : n < 2 ^ 64 := by
  unfold Json.asU64 at read
  split at read
  · split at read
    · rename_i small
      cases read
      exact small.2
    · cases read
  · cases read

private theorem current_started {clock : Instant} (seed : UInt32) (serverUri : Option String)
    (wellFormed : WellFormed (wall + clock / 1000000000) dir.registry) :
    Current sessionTo wall (started sessionTo wall seed serverUri clock dir) := by
  have valid {snap : DeviceSnapshot}
      (member : snap ∈ (loadRegistry (wall + clock / 1000000000) dir.registry.document).filter fun s =>
        s.endpoint ∈ (readList dir.included).getD []) :
      snap ∈ loadRegistry (wall + clock / 1000000000) dir.registry.document :=
    List.mem_of_mem_filter member
  have bounded : ∀ snap ∈ loadRegistry (wall + clock / 1000000000) dir.registry.document,
      snap.endOfLife < 2 ^ 64 := by
    intro snap member
    obtain ⟨-, -, client, -, ends, -⟩ := fields_of_loaded member
    exact asU64_lt ends
  have file : flushed sessionTo (started sessionTo wall seed serverUri clock dir) =
      (startUp sessionTo (wall + clock / 1000000000) clock dir).2.registry := rfl
  rw [startUp_registry] at file
  constructor
  · exact orderly_started clock wellFormed.distinct
  · intro endpoint reg packet addr position
    cases position
  · rw [file]
    split
    · exact distinct_of_loaded wellFormed.distinct
    · exact distinct_saved (fun snap member => plain_of_loaded (valid member))
        (fun snap member => bounded snap (valid member))
        (wellFormed.distinct.sublist (List.filter_sublist.map _))
  · intro id dev held included
    obtain ⟨snap, member, own, same⟩ := restored_from wellFormed.distinct held
    have sameId : dev.id = snap.id := congrArg Device.id same
    have sameEndpoint : dev.endpoint = snap.endpoint := congrArg Device.endpoint same
    have since : dev.lastRegisteredAt = clock := congrArg Device.lastRegisteredAt same
    have lasts : dev.lifetime = snap.lifetime := congrArg Device.lifetime same
    obtain ⟨alive, lifetime, client, entry, ends, named⟩ := fields_of_loaded (valid member)
    refine Or.inr (Or.inr ⟨snap.endOfLife, ?_, ?_⟩)
    · rw [file]
      split
      · exact ⟨client, sameEndpoint ▸ entry, ends, named.trans sameId.symm⟩
      · exact hasEntry_saved (fun snap member => plain_of_loaded (valid member))
          (fun snap member => bounded snap (valid member)) member sameEndpoint.symm sameId.symm
    · exact ends_restored alive (wellFormed.near snap (valid member)) since (lasts.trans lifetime)

/-- **The registry file keeps up** in every run that follows each change of an
included device's registration by a save. -/
theorem file_keepsUp (reached : (machine env sessionTo wall).Reaches (Saves env wall) s) :
    KeepsUp sessionTo wall s := by
  have current : Current sessionTo wall s := by
    refine reached.invariant (Current sessionTo wall) ?_ ?_
    · rintro s ⟨seed, serverUri, clock, dir, wellFormed, rfl⟩
      exact current_started seed serverUri wellFormed
    · intro s action next _ current allowed ran
      change s.step env sessionTo wall action = some next at ran
      cases action with
      | server action => exact current_server current allowed ran
      | tail i order => exact current_tail current allowed ran
      | run index =>
        have first : index = 0 := of_decide_eq_true allowed
        exact current_run current (first ▸ ran)
  rintro ⟨written, settled, idle⟩ id dev held included
  have file : flushed sessionTo s = s.dir.registry := by
    rw [flushed, written]
    rfl
  rcases current.recorded id dev held included with owed | registers | ⟨eol, entry, ends⟩
  · exact absurd owed settled
  · rw [idle] at registers
    cases registers
  · rw [file] at entry
    refine ⟨eol, entry, ends, fun clock later alive listed => ?_⟩
    refine restored_of_entry sessionTo clock entry (file ▸ current.distinct) ?_ alive listed
    exact Nat.add_le_add_left (Nat.div_le_div_right later) wall

/-! ## A registration and a heartbeat -/

/-- The server as it starts with a mower on the list. -/
def listed : Storage :=
  started "" 1700000000 1 none 0 (installedDir.writeIncluded (saveIncluded ["mower"]))

private theorem start_listed : (machine Peer.env "" 1700000000).start listed := by
  refine ⟨1, none, 0, _, ⟨?_, fun _ member => ?_⟩, rfl⟩
  · exact .nil
  · cases member

/-- The mower registers and the registry is saved. -/
def registration (tail : Nat) : List StorageAction :=
  (Peer.deliver (Peer.post "rd" "mower") 4).map .server ++ [.tail tail [], .run 0]

/-- A heartbeat of the mower. -/
def heartbeat : List StorageAction :=
  (Peer.deliver { Peer.post "rd" "mower" with uriPath := ["rd", "1"], uriQuery := [] } 4).map .server

/-- A heartbeat at the instant of the registration, and another registration a
minute later. -/
def registeredTwice : List StorageAction :=
  registration 0 ++ heartbeat ++ .server (.advance (fromSecs 60)) :: registration 1

/-- A heartbeat a minute after the registration. -/
def renewedLate : List StorageAction :=
  registration 0 ++ .server (.advance (fromSecs 60)) :: heartbeat

/-- All is saved, the mower is included and was registered at second 60 for a
day, and its entries end where given. -/
def mowerAtRest (ends : List Nat) (s : Storage) : Bool :=
  s.jobs.isEmpty && s.tails.all.all (fun tail => !takesSnapshots tail) &&
    (registering s.server.recv).isNone && decide ("mower" ∈ s.server.boot.included) &&
    ((s.server.devices.byId.lookup 1).any fun dev =>
      dev.endpoint = "mower" && dev.lastRegisteredAt = 60000000000 && dev.lifetime = 86400) &&
    (entriesFor s.dir.registry "mower").map (fun client => (client.get "end_of_life").asU64) =
      ends.map some

private theorem of_mowerAtRest {ends : List Nat} (rests : mowerAtRest ends s) :
    Settled s ∧ "mower" ∈ s.server.boot.included ∧
      (∃ dev, s.server.devices.byId.lookup 1 = some dev ∧ dev.endpoint = "mower" ∧
        dev.lastRegisteredAt = 60000000000 ∧ dev.lifetime = 86400) ∧
      (entriesFor s.dir.registry "mower").map (fun client => (client.get "end_of_life").asU64) =
        ends.map some := by
  simp only [mowerAtRest, Bool.and_eq_true, List.isEmpty_iff, List.all_eq_true, decide_eq_true_eq,
    Option.isNone_iff_eq_none, Option.any_eq_true, Bool.not_eq_true'] at rests
  obtain ⟨⟨⟨⟨⟨written, read⟩, idle⟩, included⟩, dev, held, ⟨own, since⟩, lifetime⟩, entries⟩ := rests
  refine ⟨⟨written, ?_, idle⟩, included, ⟨dev, held, own, since, lifetime⟩, entries⟩
  rintro ⟨tail, member, takes⟩
  rw [read tail member] at takes
  cases takes

/-- The run with two registrations, and what it leaves. -/
theorem registeredTwice_keepsUp : ∃ last,
    (machine Peer.env "" 1700000000).exec (Saves Peer.env 1700000000) listed registeredTwice =
      some last ∧
    mowerAtRest [1700086460] last ∧ KeepsUp "" 1700000000 last := by
  obtain ⟨last, ran, reached, rests⟩ := Machine.exec_reaches (machine Peer.env "" 1700000000)
    (Saves Peer.env 1700000000) listed registeredTwice (mowerAtRest [1700086460])
    start_listed (by decide +kernel)
  exact ⟨last, ran, rests, file_keepsUp reached⟩

/-- The heartbeat moves the end of the registration by a minute and the file
does not follow: a restart in that minute loses the mower. -/
theorem renewedLate_stale : ∃ last, (machine Peer.env "" 1700000000).Reaches Machine.always last ∧
    ¬ KeepsUp "" 1700000000 last ∧ mowerAtRest [1700086400] last ∧
    (startUp "" 1700086430 86430000000000 last.dir).1.byId.lookup 1 = none := by
  obtain ⟨last, ran, reached, ended⟩ := Machine.exec_reaches (machine Peer.env "" 1700000000)
    Machine.always listed renewedLate (fun s => mowerAtRest [1700086400] s &&
      ((startUp "" 1700086430 86430000000000 s.dir).1.byId.lookup 1).isNone)
    start_listed (by decide +kernel)
  obtain ⟨rests, gone⟩ := Bool.and_eq_true_iff.mp ended
  refine ⟨last, reached, fun keeps => ?_, rests, Option.isNone_iff_eq_none.mp gone⟩
  obtain ⟨settled, included, ⟨dev, held, own, since, lifetime⟩, entries⟩ := of_mowerAtRest rests
  have inside : Included last dev := by
    rw [Included, own]
    exact included
  obtain ⟨eol, ⟨client, member, ends, -⟩, ⟨-, after⟩, -⟩ := keeps settled 1 dev held inside
  have here : some eol ∈ [some 1700086400] := by
    change some eol ∈ [1700086400].map some
    rw [← entries, ← ends]
    exact List.mem_map_of_mem (own ▸ member)
  have same : eol = 1700086400 := Option.some.inj (List.mem_singleton.mp here)
  rw [same, expiry, since, lifetime] at after
  exact absurd after (by decide)

end Lwm2mServer.RegistryFile
