import Lwm2mServer.RestartedRegistry

/-! Devices across restarts. `Carried` says which devices a restart keeps and
what it keeps of them; it composes, so it says the same of any number of
restarts. The address a device is recognised by is kept only as far as it is
stored. -/
namespace Lwm2mServer.Restarts
open Library DeviceRegistry RegistryIndexes RestoredRegistry RestartedRegistry

variable {r r' : DeviceRegistry} {dev : Device} {id : UInt32} {sessionTo : String}
  {wall saved loaded : Nat} {snapshots : List DeviceSnapshot}

/-! ## Expiry -/

/-- The instant a registration expires. -/
def expiry (dev : Device) : Instant := dev.lastRegisteredAt + fromSecs dev.lifetime.toNat

/-- A device whose registration has not expired at a time. -/
def Alive (secs : Nat) (dev : Device) : Prop := fromSecs secs < expiry dev

instance (secs : Nat) (dev : Device) : Decidable (Alive secs dev) :=
  inferInstanceAs (Decidable (_ < _))

/-- The device was last registered at a whole second, less than `2 ^ 32` of
them ago. -/
def Timely (now : Nat) (dev : Device) : Prop :=
  ∃ secs ≤ now, dev.lastRegisteredAt = fromSecs secs ∧ now - secs < 2 ^ 32

/-- The snapshot of a device, with the wall clock `wall` seconds ahead. -/
def taken (wall saved : Nat) (dev : Device) : DeviceSnapshot :=
  let elapsed := UInt32.ofNat (elapsedSecs (fromSecs saved) dev.lastRegisteredAt)
  let remaining := if elapsed ≤ dev.lifetime then dev.lifetime - elapsed else 0
  { id := dev.id
    endpoint := dev.endpoint
    addr := dev.addr
    lifetime := remaining
    objects := dev.objects
    objectVersions := dev.objectVersions
    lwm2mVersion := dev.lwm2mVersion
    bindingMode := dev.bindingMode
    endOfLife := wall + saved + remaining.toNat }

theorem snapshot_eq (r : DeviceRegistry) (wall saved : Nat) :
    r.snapshot (fromSecs saved) (wall + saved) = r.byId.values.map (taken wall saved) := rfl

theorem elapsedSecs_fromSecs {now since : Nat} :
    elapsedSecs (fromSecs now) (fromSecs since) = now - since := by
  simp only [elapsedSecs, elapsed, fromSecs]
  omega

theorem fromSecs_lt {a b : Nat} : fromSecs a < fromSecs b ↔ a < b := by
  simp only [fromSecs]
  omega

theorem fromSecs_le {a b : Nat} : fromSecs a ≤ fromSecs b ↔ a ≤ b := by
  simp only [fromSecs]
  omega

theorem fromSecs_add (a b : Nat) : fromSecs (a + b) = fromSecs a + fromSecs b := by
  simp only [fromSecs]
  omega

/-- A snapshot ends when the registration does, or at once if that is past. -/
theorem endOfLife_taken {secs : Nat} (since : dev.lastRegisteredAt = fromSecs secs)
    (before : secs ≤ saved) (recent : saved - secs < 2 ^ 32) :
    (taken wall saved dev).endOfLife = wall + max saved (secs + dev.lifetime.toNat) := by
  have passed : (UInt32.ofNat (elapsedSecs (fromSecs saved) dev.lastRegisteredAt)).toNat =
      saved - secs := by
    rw [since, elapsedSecs_fromSecs, UInt32.toNat_ofNat']
    exact Nat.mod_eq_of_lt recent
  simp only [taken]
  split
  · rename_i within
    have order := UInt32.le_iff_toNat_le.mp within
    rw [UInt32.toNat_sub_of_le _ _ within, passed]
    omega
  · rename_i later
    have order := (UInt32.le_iff_toNat_le.not.mp later)
    rw [UInt32.toNat_zero]
    omega

theorem alive_taken (timely : Timely saved dev) (later : saved ≤ loaded) :
    wall + loaded < (taken wall saved dev).endOfLife ↔ Alive loaded dev := by
  obtain ⟨secs, before, since, recent⟩ := timely
  rw [endOfLife_taken since before recent, Alive, expiry, since, ← fromSecs_add, fromSecs_lt]
  omega

theorem bounded_taken (dev : Device) (clock : wall + saved < 2 ^ 63) :
    (taken wall saved dev).endOfLife < 2 ^ 64 := by
  have below (lifetime : UInt32) : lifetime.toNat < 2 ^ 32 := lifetime.toNat_lt
  simp only [taken]
  have small := below (if UInt32.ofNat (elapsedSecs (fromSecs saved) dev.lastRegisteredAt) ≤ dev.lifetime
    then dev.lifetime - UInt32.ofNat (elapsedSecs (fromSecs saved) dev.lastRegisteredAt) else 0)
  omega

/-! ## What a restart restores -/

/-- The device as it is restored. -/
def restoredAs (wall saved loaded : Nat) (dev : Device) : Device :=
  restoredDevice (fromSecs loaded) (reloaded (wall + loaded) (taken wall saved dev))

/-- The remaining lifetime reaches up to the same instant. -/
theorem expiry_restoredAs (timely : Timely saved dev) (later : saved ≤ loaded)
    (alive : Alive loaded dev) : expiry (restoredAs wall saved loaded dev) = expiry dev := by
  obtain ⟨secs, before, since, recent⟩ := timely
  have ahead : loaded < secs + dev.lifetime.toNat := by
    rw [Alive, expiry, since, ← fromSecs_add, fromSecs_lt] at alive
    exact alive
  have small := dev.lifetime.toNat_lt
  have remaining : (restoredAs wall saved loaded dev).lifetime.toNat =
      secs + dev.lifetime.toNat - loaded := by
    change (UInt32.ofNat ((taken wall saved dev).endOfLife - (wall + loaded))).toNat = _
    rw [endOfLife_taken since before recent, UInt32.toNat_ofNat']
    omega
  rw [expiry, remaining, expiry, since]
  change fromSecs loaded + _ = _
  rw [← fromSecs_add, ← fromSecs_add]
  congr 1
  omega

/-- What a restart keeps of a device. -/
structure Preserved (dev kept : Device) : Prop where
  id : kept.id = dev.id
  endpoint : kept.endpoint = dev.endpoint
  addr : kept.addr = dev.addr
  versions : ∀ object, kept.objectVersions.lookup object = dev.objectVersions.lookup object
  lwm2m : kept.lwm2mVersion = dev.lwm2mVersion
  binding : kept.bindingMode = dev.bindingMode
  objects : ∃ ids : List UInt32, kept.objects = ids.map storedPath ∧ ids.Pairwise (· < ·) ∧
    ∀ object, object ∈ ids ↔ Named dev.objects dev.objectVersions object
  expiry : expiry kept = Restarts.expiry dev

theorem preserved_restoredAs (timely : Timely saved dev) (later : saved ≤ loaded)
    (alive : Alive loaded dev) (stored : storedAddr dev.addr = dev.addr)
    (given : ∀ object, dev.objectVersions.lookup object ≠ some "") :
    Preserved dev (restoredAs wall saved loaded dev) where
  id := rfl
  endpoint := rfl
  addr := stored
  versions := storedObjects_versions (s := taken wall saved dev) given
  lwm2m := rfl
  binding := rfl
  objects := ⟨objectIds (taken wall saved dev), storedObjects_paths _, objectIds_sorted _,
    mem_objectIds (taken wall saved dev)⟩
  expiry := expiry_restoredAs timely later alive

/-! ## The restored registry -/

theorem byId_restored_of_mem {s : DeviceSnapshot} (now : Instant)
    (distinct : (snapshots.map (·.id)).Nodup) (member : s ∈ snapshots) :
    (DeviceRegistry.new.restore now snapshots).byId.lookup s.id = some (restoredDevice now s) := by
  obtain ⟨front, back, rfl⟩ := List.append_of_mem member
  rw [List.map_append, List.map_cons, List.nodup_append] at distinct
  have later : ∀ t ∈ back, t.id ≠ s.id := fun t inBack same =>
    (List.nodup_cons.mp distinct.2.1).1 (same ▸ List.mem_map_of_mem inBack)
  rw [restore, List.foldl_append, List.foldl_cons]
  exact (byId_restore later).trans (by simp [restoreOne])

theorem mem_of_byId_restored {now : Instant} {found : Device}
    (distinct : (snapshots.map (·.id)).Nodup)
    (held : (DeviceRegistry.new.restore now snapshots).byId.lookup id = some found) :
    ∃ s ∈ snapshots, s.id = id ∧ found = restoredDevice now s := by
  by_cases loaded : ∃ s ∈ snapshots, s.id = id
  · obtain ⟨s, member, rfl⟩ := loaded
    rw [byId_restored_of_mem now distinct member] at held
    exact ⟨s, member, rfl, (Option.some.inj held).symm⟩
  · rw [byId_restore fun s member same => loaded ⟨s, member, same⟩] at held
    simp [new] at held

theorem byAddr_restored_of_last (now : Instant) (front : List DeviceSnapshot) (s : DeviceSnapshot)
    (back : List DeviceSnapshot) (last : ∀ t ∈ back, t.addr ≠ s.addr) :
    (DeviceRegistry.new.restore now (front ++ s :: back)).byAddr.lookup s.addr = some s.id := by
  rw [restore, List.foldl_append, List.foldl_cons]
  exact (byAddr_restore last).trans (by simp [restoreOne])

/-! ## Keys of a snapshot -/

theorem keyed_of_mem (keyed : Keyed r) (member : dev ∈ r.byId.values) :
    r.byId.lookup dev.id = some dev := by
  obtain ⟨id, held⟩ := Table.mem_values.mp member
  rw [keyed.ownId id dev held]
  exact held

private theorem mem_of_held (held : r.byId.lookup id = some dev) : dev ∈ r.byId.values :=
  Table.mem_values.mpr ⟨id, held⟩

theorem ids_nodup (keyed : Keyed r) : (r.byId.values.map (·.id)).Nodup := by
  have same : r.byId.values.map (·.id) = r.byId.keys := by
    rw [Table.values, List.map_map, AList.keys, List.keys]
    refine List.map_congr_left fun entry member => ?_
    exact keyed.ownId entry.1 entry.2 (AList.mem_lookup_iff.mpr member)
  rw [same]
  exact r.byId.keys_nodup

/-- Devices that agree on a label that determines the id are one. -/
theorem nodup_of_ids {α : Type} (keyed : Keyed r) (label : Device → α)
    (determines : ∀ dev ∈ r.byId.values, ∀ other ∈ r.byId.values,
      label dev = label other → dev.id = other.id) :
    (r.byId.values.map label).Nodup := by
  have ids := List.pairwise_map.mp (ids_nodup keyed)
  refine List.pairwise_map.mpr (ids.imp_of_mem fun {a b} inA inB distinct same => ?_)
  exact distinct (determines a inA b inB same)

theorem endpoint_determines (keyed : Keyed r) :
    ∀ dev ∈ r.byId.values, ∀ other ∈ r.byId.values,
      dev.endpoint = other.endpoint → dev.id = other.id := by
  intro dev inside other inside' same
  have mine := keyed.ownEndpoint _ _ (keyed_of_mem keyed inside)
  rw [same, keyed.ownEndpoint _ _ (keyed_of_mem keyed inside')] at mine
  exact (Option.some.inj mine).symm

/-! ## One restart -/

/-- The entries that are loaded after they were saved. -/
def reload (sessionTo : String) (wall : Nat) (entries : List DeviceSnapshot) (loaded : Nat) :
    List DeviceSnapshot :=
  loadRegistry (wall + loaded) (some (saveRegistry sessionTo entries))

/-- `snapshot` and `save_registry` at one time, `load_registry` and `restore`
at another. The snapshot lists the devices in any order, as the hash map they
are kept in does. -/
def Restart (sessionTo : String) (wall saved loaded : Nat) (r r' : DeviceRegistry) : Prop :=
  ∃ entries, entries.Perm (r.snapshot (fromSecs saved) (wall + saved)) ∧
    r' = DeviceRegistry.new.restore (fromSecs loaded) (reload sessionTo wall entries loaded)

theorem exists_restart (sessionTo : String) (wall saved loaded : Nat) (r : DeviceRegistry) :
    ∃ r', Restart sessionTo wall saved loaded r r' := ⟨_, _, .refl _, rfl⟩

/-- What the callers of `register` and the clock promise of the devices:
endpoints as `sgtin_from_ep` leaves them, times in whole seconds. -/
structure Storable (r : DeviceRegistry) (saved : Nat) : Prop where
  plain : ∀ dev ∈ r.byId.values, ':' ∉ dev.endpoint.toList
  timely : ∀ dev ∈ r.byId.values, Timely saved dev

section Reload
variable {entries : List DeviceSnapshot}

private theorem taken_of_mem (order : entries.Perm (r.snapshot (fromSecs saved) (wall + saved)))
    {s : DeviceSnapshot} : s ∈ entries ↔ ∃ dev ∈ r.byId.values, taken wall saved dev = s := by
  rw [order.mem_iff, snapshot_eq, List.mem_map]

private theorem reload_eq (order : entries.Perm (r.snapshot (fromSecs saved) (wall + saved)))
    (storable : Storable r saved) (clock : wall + saved < 2 ^ 63) :
    reload sessionTo wall entries loaded =
      (entries.filter fun s => wall + loaded < s.endOfLife).map (reloaded (wall + loaded)) := by
  refine loadRegistry_saveRegistry (fun s member => ?_) (fun s member => ?_)
  · obtain ⟨dev, inside, rfl⟩ := (taken_of_mem order).mp member
    exact storable.plain dev inside
  · obtain ⟨dev, inside, rfl⟩ := (taken_of_mem order).mp member
    exact bounded_taken dev clock

/-- Exactly the devices that are alive are loaded. -/
private theorem mem_reload (sessionTo : String)
    (order : entries.Perm (r.snapshot (fromSecs saved) (wall + saved)))
    (storable : Storable r saved) (later : saved ≤ loaded) (clock : wall + saved < 2 ^ 63)
    {s : DeviceSnapshot} : s ∈ reload sessionTo wall entries loaded ↔
      ∃ dev ∈ r.byId.values, Alive loaded dev ∧
        s = reloaded (wall + loaded) (taken wall saved dev) := by
  rw [reload_eq order storable clock, List.mem_map]
  constructor
  · rintro ⟨t, passing, rfl⟩
    obtain ⟨member, alive⟩ := List.mem_filter.mp passing
    obtain ⟨dev, inside, rfl⟩ := (taken_of_mem order).mp member
    exact ⟨dev, inside, (alive_taken (storable.timely dev inside) later).mp (of_decide_eq_true alive), rfl⟩
  · rintro ⟨dev, inside, alive, rfl⟩
    have passing : wall + loaded < (taken wall saved dev).endOfLife :=
      (alive_taken (storable.timely dev inside) later).mpr alive
    exact ⟨_, List.mem_filter.mpr ⟨(taken_of_mem order).mpr ⟨dev, inside, rfl⟩, decide_eq_true passing⟩, rfl⟩

/-- A label that tells the devices apart tells the loaded entries apart. -/
private theorem reload_nodup {α : Type} {label : DeviceSnapshot → α}
    (order : entries.Perm (r.snapshot (fromSecs saved) (wall + saved)))
    (storable : Storable r saved) (clock : wall + saved < 2 ^ 63)
    (distinct : (r.byId.values.map fun dev => label (taken wall saved dev)).Nodup)
    (kept : ∀ s, label (reloaded (wall + loaded) s) = label s) :
    ((reload sessionTo wall entries loaded).map label).Nodup := by
  have same : (label ∘ reloaded (wall + loaded)) = label := funext kept
  have all : (entries.map label).Nodup := by
    refine (order.map label).nodup_iff.mpr ?_
    rw [snapshot_eq, List.map_map]
    exact distinct
  rw [reload_eq order storable clock, List.map_map, same]
  exact (List.filter_sublist.map label).nodup all

end Reload

/-- Ids and endpoints are told apart in what is loaded. -/
private theorem reload_keys {entries : List DeviceSnapshot} (sessionTo : String) (loaded : Nat)
    (keyed : Keyed r)
    (order : entries.Perm (r.snapshot (fromSecs saved) (wall + saved)))
    (storable : Storable r saved) (clock : wall + saved < 2 ^ 63) :
    ((reload sessionTo wall entries loaded).map (·.id)).Nodup ∧
      ((reload sessionTo wall entries loaded).map (·.endpoint)).Nodup :=
  ⟨reload_nodup order storable clock (ids_nodup keyed) fun _ => rfl,
    reload_nodup order storable clock (nodup_of_ids keyed (·.endpoint) (endpoint_determines keyed))
      fun _ => rfl⟩

theorem indexes_restart (keyed : Keyed r) (storable : Storable r saved)
    (clock : wall + saved < 2 ^ 63) (run : Restart sessionTo wall saved loaded r r') :
    IndexesSound r' := by
  obtain ⟨entries, order, rfl⟩ := run
  obtain ⟨ids, endpoints⟩ := reload_keys sessionTo loaded keyed order storable clock
  exact indexes_restore _ _ indexes_new ids endpoints fun s _ => by simp [new]

/-- The restored registry holds the devices that are alive, each as it was
stored. -/
theorem byId_restart (keyed : Keyed r) (storable : Storable r saved) (later : saved ≤ loaded)
    (clock : wall + saved < 2 ^ 63) (run : Restart sessionTo wall saved loaded r r')
    {found : Device} : r'.byId.lookup id = some found ↔
      ∃ dev, r.byId.lookup id = some dev ∧ Alive loaded dev ∧
        found = restoredAs wall saved loaded dev := by
  obtain ⟨entries, order, rfl⟩ := run
  have distinct := (reload_keys sessionTo loaded keyed order storable clock).1
  constructor
  · intro held
    obtain ⟨s, member, rfl, rfl⟩ := mem_of_byId_restored distinct held
    obtain ⟨dev, inside, alive, rfl⟩ := (mem_reload sessionTo order storable later clock).mp member
    exact ⟨dev, keyed_of_mem keyed inside, alive, rfl⟩
  · rintro ⟨dev, held, alive, rfl⟩
    have member := (mem_reload sessionTo order storable later clock).mpr
      ⟨dev, mem_of_held held, alive, rfl⟩
    have restored := byId_restored_of_mem (fromSecs loaded) distinct member
    rw [← keyed.ownId id dev held]
    exact restored

/-! ## Any number of restarts -/

/-- The registries a restart preserves in full: versions as
`parse_link_format` records them, distinct IPv6 addresses without scope and
flow label. -/
structure Eligible (r : DeviceRegistry) (saved : Nat) : Prop extends Storable r saved where
  given : ∀ dev ∈ r.byId.values, ∀ object, dev.objectVersions.lookup object ≠ some ""
  addrs : ∀ dev ∈ r.byId.values, ∃ ip port, dev.addr = .v6 ip port 0 0
  apart : ∀ dev ∈ r.byId.values, ∀ other ∈ r.byId.values, dev.addr = other.addr → dev.id = other.id

/-- A registry holds exactly the devices of another that are alive. -/
structure Carried (loaded : Nat) (r r' : DeviceRegistry) : Prop where
  kept : ∀ id dev, r.byId.lookup id = some dev → Alive loaded dev →
    ∃ found, r'.byId.lookup id = some found ∧ Preserved dev found
  only : ∀ id found, r'.byId.lookup id = some found →
    ∃ dev, r.byId.lookup id = some dev ∧ Alive loaded dev ∧ Preserved dev found
  indexes : IndexesSound r'

private theorem storedAddr_zero (zero : ∃ ip port, dev.addr = .v6 ip port 0 0) :
    storedAddr dev.addr = dev.addr := by
  obtain ⟨ip, port, here⟩ := zero
  rw [here]
  rfl

/-- One restart carries over exactly the devices that are alive. -/
theorem carried_restart (keyed : Keyed r) (eligible : Eligible r saved) (later : saved ≤ loaded)
    (clock : wall + saved < 2 ^ 63) (run : Restart sessionTo wall saved loaded r r') :
    Carried loaded r r' := by
  have preserved (id : UInt32) (dev : Device) (held : r.byId.lookup id = some dev)
      (alive : Alive loaded dev) : Preserved dev (restoredAs wall saved loaded dev) := by
    have inside := mem_of_held held
    exact preserved_restoredAs (eligible.timely dev inside) later alive
      (storedAddr_zero (eligible.addrs dev inside)) (eligible.given dev inside)
  constructor
  · intro id dev held alive
    refine ⟨restoredAs wall saved loaded dev, ?_, preserved id dev held alive⟩
    exact (byId_restart keyed eligible.toStorable later clock run).mpr ⟨dev, held, alive, rfl⟩
  · intro id found held
    obtain ⟨dev, stored, alive, rfl⟩ := (byId_restart keyed eligible.toStorable later clock run).mp held
    exact ⟨dev, stored, alive, preserved id dev stored alive⟩
  · exact indexes_restart keyed eligible.toStorable clock run

/-- The ids a stored object list names are its own. -/
private theorem named_preserved {kept : Device} (preserved : Preserved dev kept) (object : UInt32) :
    Named kept.objects kept.objectVersions object ↔ Named dev.objects dev.objectVersions object := by
  obtain ⟨ids, listed, _, named⟩ := preserved.objects
  have paths : (∃ path ∈ kept.objects, leadingId path = some object) ↔ object ∈ ids := by
    rw [listed]
    constructor
    · rintro ⟨path, member, read⟩
      obtain ⟨id, inside, rfl⟩ := List.mem_map.mp member
      rw [leadingId_storedPath] at read
      exact Option.some.inj read ▸ inside
    · intro inside
      exact ⟨storedPath object, List.mem_map_of_mem inside, leadingId_storedPath object⟩
  rw [Named, paths, named, preserved.versions]
  exact or_iff_right_of_imp Or.inl

theorem Preserved.trans {kept last : Device} (first : Preserved dev kept)
    (second : Preserved kept last) : Preserved dev last where
  id := second.id.trans first.id
  endpoint := second.endpoint.trans first.endpoint
  addr := second.addr.trans first.addr
  versions object := (second.versions object).trans (first.versions object)
  lwm2m := second.lwm2m.trans first.lwm2m
  binding := second.binding.trans first.binding
  objects := by
    obtain ⟨ids, listed, sorted, named⟩ := second.objects
    exact ⟨ids, listed, sorted, fun object => (named object).trans (named_preserved first object)⟩
  expiry := second.expiry.trans first.expiry

private theorem alive_preserved {kept : Device} (preserved : Preserved dev kept) :
    Alive loaded kept ↔ Alive loaded dev := by
  rw [Alive, Alive, preserved.expiry]

private theorem alive_earlier {early late : Nat} (alive : Alive late dev) (order : early ≤ late) :
    Alive early dev := by
  exact Nat.lt_of_le_of_lt (fromSecs_le.mpr order) alive

theorem Carried.trans {early late : Nat} {r'' : DeviceRegistry} (first : Carried early r r')
    (second : Carried late r' r'') (order : early ≤ late) : Carried late r r'' where
  kept id dev held alive := by
    obtain ⟨middle, held', preserved⟩ := first.kept id dev held (alive_earlier alive order)
    obtain ⟨found, held'', preserved'⟩ := second.kept id middle held' ((alive_preserved preserved).mpr alive)
    exact ⟨found, held'', preserved.trans preserved'⟩
  only id found held := by
    obtain ⟨middle, held', alive, preserved'⟩ := second.only id found held
    obtain ⟨dev, held, _, preserved⟩ := first.only id middle held'
    exact ⟨dev, held, (alive_preserved preserved).mp alive, preserved.trans preserved'⟩
  indexes := second.indexes

/-- What a restart leaves can be saved again. -/
theorem eligible_carried {resaved : Nat} (eligible : Eligible r saved) (carried : Carried loaded r r')
    (since : ∀ id found, r'.byId.lookup id = some found → found.lastRegisteredAt = fromSecs loaded)
    (later : loaded ≤ resaved) (recent : resaved - loaded < 2 ^ 32) : Eligible r' resaved := by
  have origin {found : Device} (inside : found ∈ r'.byId.values) :
      ∃ dev ∈ r.byId.values, Preserved dev found := by
    obtain ⟨id, held⟩ := Table.mem_values.mp inside
    obtain ⟨dev, held, _, preserved⟩ := carried.only id found held
    exact ⟨dev, mem_of_held held, preserved⟩
  refine ⟨⟨?_, ?_⟩, ?_, ?_, ?_⟩
  · intro found inside
    obtain ⟨dev, member, preserved⟩ := origin inside
    rw [preserved.endpoint]
    exact eligible.plain dev member
  · intro found inside
    obtain ⟨id, held⟩ := Table.mem_values.mp inside
    exact ⟨loaded, later, since id found held, recent⟩
  · intro found inside object
    obtain ⟨dev, member, preserved⟩ := origin inside
    rw [preserved.versions]
    exact eligible.given dev member object
  · intro found inside
    obtain ⟨dev, member, preserved⟩ := origin inside
    rw [preserved.addr]
    exact eligible.addrs dev member
  · intro found inside other inside' same
    obtain ⟨dev, member, preserved⟩ := origin inside
    obtain ⟨dev', member', preserved'⟩ := origin inside'
    rw [preserved.addr, preserved'.addr] at same
    rw [preserved.id, preserved'.id]
    exact eligible.apart dev member dev' member' same

/-- One or more restarts of a registry in a row with no heartbeats between
them, the first saved at one time and the last loaded at another. -/
inductive Cycles (sessionTo : String) (wall : Nat) (first : DeviceRegistry) (saved : Nat) :
    Nat → DeviceRegistry → Prop where
  | once {loaded : Nat} {next : DeviceRegistry} (later : saved ≤ loaded)
      (clock : wall + saved < 2 ^ 63) (run : Restart sessionTo wall saved loaded first next) :
      Cycles sessionTo wall first saved loaded next
  | again {loaded resaved reloaded : Nat} {next last : DeviceRegistry}
      (before : Cycles sessionTo wall first saved loaded next)
      (resumed : loaded ≤ resaved) (recent : resaved - loaded < 2 ^ 32)
      (later : resaved ≤ reloaded) (clock : wall + resaved < 2 ^ 63)
      (run : Restart sessionTo wall resaved reloaded next last) :
      Cycles sessionTo wall first saved reloaded last

private theorem since_restart (keyed : Keyed r) (storable : Storable r saved) (later : saved ≤ loaded)
    (clock : wall + saved < 2 ^ 63) (run : Restart sessionTo wall saved loaded r r') (id : UInt32)
    (found : Device) (held : r'.byId.lookup id = some found) :
    found.lastRegisteredAt = fromSecs loaded := by
  obtain ⟨dev, _, _, rfl⟩ := (byId_restart keyed storable later clock run).mp held
  rfl

private theorem cycles_carry (keyed : Keyed r) (eligible : Eligible r saved)
    (run : Cycles sessionTo wall r saved loaded r') :
    Carried loaded r r' ∧
      ∀ id found, r'.byId.lookup id = some found → found.lastRegisteredAt = fromSecs loaded := by
  induction run with
  | once later clock run =>
    exact ⟨carried_restart keyed eligible later clock run,
      since_restart keyed eligible.toStorable later clock run⟩
  | again before resumed recent later clock run ih =>
    obtain ⟨carried, since⟩ := ih
    have keyed' := keyed_of_indexes carried.indexes
    have eligible' := eligible_carried eligible carried since resumed recent
    have next := carried_restart keyed' eligible' later clock run
    exact ⟨carried.trans next (Nat.le_trans resumed later),
      since_restart keyed' eligible'.toStorable later clock run⟩

/-- Whatever calls were made since a start from distinct ids and endpoints. -/
private theorem keyed_reached {began : Instant} {initial : List DeviceSnapshot}
    (ids : (initial.map (·.id)).Nodup) (endpoints : (initial.map (·.endpoint)).Nodup)
    (reached : (restarted began initial).Reaches Machine.always r) : Keyed r := by
  refine reached.invariant Keyed (fun r start => ?_) ?_
  · have sound : IndexesSound (DeviceRegistry.new.restore began initial) :=
      indexes_restore _ _ indexes_new ids endpoints fun s _ => by simp [new]
    exact start ▸ keyed_of_indexes sound
  · intro r op next _ keyed _ ran
    exact keyed_apply keyed ran

/-- **Restarts carry over exactly the devices whose registration has not
expired**, with the same expiry however many there were. -/
theorem restarts_carry {began : Instant} {initial : List DeviceSnapshot}
    (ids : (initial.map (·.id)).Nodup) (endpoints : (initial.map (·.endpoint)).Nodup)
    (reached : (restarted began initial).Reaches Machine.always r) (eligible : Eligible r saved)
    (run : Cycles sessionTo wall r saved loaded r') : Carried loaded r r' :=
  (cycles_carry (keyed_reached ids endpoints reached) eligible run).1

/-- A registration as a mower makes it. -/
def mowerRegistration : Registration where
  lifetime := 3600
  objects := ["3/0", "1/1", "5"]
  objectVersions := (∅ : Table UInt32 String).insert 3 "1.1"
  lwm2mVersion := "1.1"
  bindingMode := "UQ"

/-- The mower's link-local address. -/
def mowerAddr (scopeId : UInt32) : SocketAddr := .v6 0xfe800000000000000000000000000001 5683 0 scopeId

/-- A registry with a mower that registered ten seconds after the start. -/
def oneMower (scopeId : UInt32) : DeviceRegistry :=
  { DeviceRegistry.new with
    byId := DeviceRegistry.new.byId.insert 1
      (.new 1 "mower" (mowerAddr scopeId) mowerRegistration (fromSecs 10))
    byEndpoint := DeviceRegistry.new.byEndpoint.insert "mower" 1
    byAddr := DeviceRegistry.new.byAddr.insert (mowerAddr scopeId) 1
    nextId := 2 }

private theorem reached_oneMower (scopeId : UInt32) :
    (restarted 0 []).Reaches Machine.always (oneMower scopeId) := by
  have ran : (restarted 0 []).step .new
      (.register (fromSecs 10) "mower" (mowerAddr scopeId) mowerRegistration) =
      some (oneMower scopeId) := rfl
  exact .step (.start rfl) trivial ran

private theorem mem_oneMower {scopeId : UInt32} (inside : dev ∈ (oneMower scopeId).byId.values) :
    dev = .new 1 "mower" (mowerAddr scopeId) mowerRegistration (fromSecs 10) :=
  List.mem_singleton.mp inside

private theorem storable_oneMower (scopeId : UInt32) : Storable (oneMower scopeId) 100 where
  plain dev inside := by
    rw [mem_oneMower inside]
    change ':' ∉ "mower".toList
    decide
  timely dev inside := by
    rw [mem_oneMower inside]
    exact ⟨10, by decide, rfl, by decide⟩

private theorem eligible_oneMower : Eligible (oneMower 0) 100 where
  toStorable := storable_oneMower 0
  given dev inside object := by
    rw [mem_oneMower inside]
    change mowerRegistration.objectVersions.lookup object ≠ some ""
    rw [mowerRegistration, Table.lookup_insert_if]
    split <;> simp
  addrs dev inside := by
    rw [mem_oneMower inside]
    exact ⟨_, _, rfl⟩
  apart dev inside other inside' _ := by
    rw [mem_oneMower inside, mem_oneMower inside']

/-- Saved and loaded twice, the mower is still registered. -/
theorem restarts_carry_mower : ∃ r', Cycles "fc00::6:100:0:0" 1700000000 (oneMower 0) 100 220 r' ∧
    Carried 220 (oneMower 0) r' ∧ (r'.byId.lookup 1).isSome := by
  obtain ⟨middle, first⟩ := exists_restart "fc00::6:100:0:0" 1700000000 100 120 (oneMower 0)
  obtain ⟨last, second⟩ := exists_restart "fc00::6:100:0:0" 1700000000 200 220 middle
  have cycles := (Cycles.once (by decide) (by decide) first).again (by decide) (by decide)
    (by decide) (by decide) second
  have carried := restarts_carry (by simp) (by simp) (reached_oneMower 0) eligible_oneMower cycles
  obtain ⟨found, held, _⟩ := carried.kept 1 _ rfl (by decide)
  exact ⟨_, cycles, carried, by simp [held]⟩

/-! ## The address of a device -/

/-- A packet from the address the device had is taken for the device's, and
requests to it are sent to that address. -/
def Recognised (loaded : Nat) (r' : DeviceRegistry) (dev : Device) : Prop :=
  (∃ after, r'.touch (fromSecs loaded) dev.addr = some (some dev.endpoint, after)) ∧
    ∃ id versions, r'.addrAndIdByEndpoint dev.endpoint = some (some (dev.addr, id, versions))

/-- A device that was restored, by its keys. -/
private theorem restored_keys (keyed : Keyed r) (storable : Storable r saved) (later : saved ≤ loaded)
    (clock : wall + saved < 2 ^ 63) (run : Restart sessionTo wall saved loaded r r')
    (held : r.byId.lookup id = some dev) (alive : Alive loaded dev) :
    r'.byId.lookup id = some (restoredAs wall saved loaded dev) ∧
      r'.byEndpoint.lookup dev.endpoint = some id := by
  have stored := (byId_restart keyed storable later clock run).mpr ⟨dev, held, alive, rfl⟩
  exact ⟨stored, ((indexes_restart keyed storable clock run).byEndpoint _ _).mpr ⟨_, stored, rfl⟩⟩

/-- The device restored last at an address is the one packets from there are
taken for. -/
private theorem touch_restored {addr : SocketAddr} (index : r'.byAddr.lookup addr = some id)
    (stored : r'.byId.lookup id = some (restoredAs wall saved loaded dev)) :
    ∃ after, r'.touch (fromSecs loaded) addr = some (some dev.endpoint, after) := by
  have offline : (restoredAs wall saved loaded dev).online = some false := rfl
  have own : (restoredAs wall saved loaded dev).endpoint = dev.endpoint := rfl
  simp [touch, index, stored, offline, own]

private theorem byAddr_restart (keyed : Keyed r) (storable : Storable r saved)
    (later : saved ≤ loaded) (clock : wall + saved < 2 ^ 63)
    (run : Restart sessionTo wall saved loaded r r') (held : r.byId.lookup id = some dev)
    (alive : Alive loaded dev)
    (alone : ∀ other ∈ r.byId.values, Alive loaded other →
      storedAddr other.addr = storedAddr dev.addr → other.id = dev.id) :
    r'.byAddr.lookup (storedAddr dev.addr) = some id := by
  obtain ⟨entries, order, rfl⟩ := run
  have distinct := (reload_keys sessionTo loaded keyed order storable clock).1
  have member := (mem_reload sessionTo order storable later clock).mpr ⟨dev, mem_of_held held, alive, rfl⟩
  have all {t : DeviceSnapshot} : t ∈ reload sessionTo wall entries loaded → _ :=
    (mem_reload sessionTo order storable later clock).mp
  revert distinct all
  obtain ⟨front, back, split⟩ := List.append_of_mem member
  rw [split]
  intro distinct all
  rw [← keyed.ownId id dev held]
  refine byAddr_restored_of_last _ front (reloaded _ (taken wall saved dev)) back fun t inBack same => ?_
  obtain ⟨other, inside, alive', rfl⟩ := all (List.mem_append_right _ (List.mem_cons_of_mem _ inBack))
  have listed : other.id ∈ back.map (·.id) := List.mem_map_of_mem inBack
  rw [alone other inside alive' same] at listed
  rw [List.map_append, List.map_cons, List.nodup_append] at distinct
  exact (List.nodup_cons.mp distinct.2.1).1 listed

/-- Any device may come last in the snapshot. -/
private theorem exists_last (sessionTo : String) (storable : Storable r saved) (later : saved ≤ loaded)
    (clock : wall + saved < 2 ^ 63) (inside : dev ∈ r.byId.values) (alive : Alive loaded dev) :
    ∃ r', Restart sessionTo wall saved loaded r r' ∧
      r'.byAddr.lookup (storedAddr dev.addr) = some dev.id := by
  have member : taken wall saved dev ∈ r.snapshot (fromSecs saved) (wall + saved) := by
    rw [snapshot_eq]
    exact List.mem_map_of_mem inside
  obtain ⟨front, back, split⟩ := List.append_of_mem member
  have order : (front ++ back ++ [taken wall saved dev]).Perm
      (r.snapshot (fromSecs saved) (wall + saved)) := by
    rw [split, List.append_assoc]
    exact (List.perm_append_singleton _ back).append_left front
  have passing : wall + loaded < (taken wall saved dev).endOfLife :=
    (alive_taken (storable.timely dev inside) later).mpr alive
  refine ⟨_, ⟨_, order, rfl⟩, ?_⟩
  have lone : [taken wall saved dev].filter (fun s => decide (wall + loaded < s.endOfLife)) =
      [taken wall saved dev] := List.filter_eq_self.mpr (by simpa using passing)
  rw [reload_eq order storable clock, List.filter_append, List.map_append, lone]
  exact byAddr_restored_of_last _ _ (reloaded _ (taken wall saved dev)) [] fun t none => by cases none

private theorem storedAddr_of_recognised (keyed : Keyed r) (storable : Storable r saved)
    (later : saved ≤ loaded) (clock : wall + saved < 2 ^ 63)
    (run : Restart sessionTo wall saved loaded r r') (held : r.byId.lookup id = some dev)
    (alive : Alive loaded dev) (recognised : Recognised loaded r' dev) :
    storedAddr dev.addr = dev.addr := by
  obtain ⟨stored, index⟩ := restored_keys keyed storable later clock run held alive
  obtain ⟨_, id', versions, found⟩ := recognised
  simp only [addrAndIdByEndpoint, index, stored, Option.map_some, Option.some.injEq,
    Prod.mk.injEq] at found
  exact found.1

/-- **A device is recognised after a restart exactly if its address has no
scope and no flow label** and no other device is loaded with its address. -/
theorem recognised_iff {began : Instant} {initial : List DeviceSnapshot} {ip : BitVec 128}
    {port : UInt16} {flowinfo scopeId : UInt32} (ids : (initial.map (·.id)).Nodup)
    (endpoints : (initial.map (·.endpoint)).Nodup)
    (reached : (restarted began initial).Reaches Machine.always r) (storable : Storable r saved)
    (later : saved ≤ loaded) (clock : wall + saved < 2 ^ 63) (held : r.byId.lookup id = some dev)
    (addr : dev.addr = .v6 ip port flowinfo scopeId) (alive : Alive loaded dev) :
    (∀ r', Restart sessionTo wall saved loaded r r' → Recognised loaded r' dev) ↔
      flowinfo = 0 ∧ scopeId = 0 ∧ ∀ other ∈ r.byId.values, Alive loaded other →
        storedAddr other.addr = dev.addr → other.id = dev.id := by
  have keyed := keyed_reached ids endpoints reached
  have inside := mem_of_held held
  constructor
  · intro recognised
    obtain ⟨r', run, _⟩ := exists_last sessionTo storable later clock inside alive
    have same := storedAddr_of_recognised keyed storable later clock run held alive (recognised r' run)
    have zero : (0 : UInt32) = flowinfo ∧ (0 : UInt32) = scopeId := by
      rw [addr, storedAddr] at same
      simpa using same
    refine ⟨zero.1.symm, zero.2.symm, fun other inside' alive' clash => ?_⟩
    obtain ⟨r', run, last⟩ := exists_last sessionTo storable later clock inside' alive'
    obtain ⟨stored', _⟩ := restored_keys keyed storable later clock run
      (keyed_of_mem keyed inside') alive'
    obtain ⟨after, touched⟩ := touch_restored last stored'
    obtain ⟨⟨after', touched'⟩, _⟩ := recognised r' run
    rw [clash, touched'] at touched
    have endpoint : dev.endpoint = other.endpoint := by
      simpa using congrArg (Option.map Prod.fst) touched
    exact (endpoint_determines keyed dev inside other inside' endpoint).symm
  · rintro ⟨rfl, rfl, alone⟩ r' run
    have same : storedAddr dev.addr = dev.addr := by
      rw [addr]
      rfl
    obtain ⟨stored, index⟩ := restored_keys keyed storable later clock run held alive
    have byAddr := byAddr_restart keyed storable later clock run held alive
      fun other inside' alive' clash => alone other inside' alive' (clash.trans same)
    rw [same] at byAddr
    refine ⟨touch_restored byAddr stored, id, (restoredAs wall saved loaded dev).objectVersions, ?_⟩
    simp only [addrAndIdByEndpoint, index, stored, Option.map_some]
    exact congrArg (fun here => some (some (here, _))) same

/-- The mower is recognised from its address without a scope. -/
theorem recognised_iff_mower : ∃ r', Restart "fc00::6:100:0:0" 1700000000 100 120 (oneMower 0) r' ∧
    Recognised 120 r' (.new 1 "mower" (mowerAddr 0) mowerRegistration (fromSecs 10)) := by
  obtain ⟨r', run⟩ := exists_restart "fc00::6:100:0:0" 1700000000 100 120 (oneMower 0)
  refine ⟨r', run, (recognised_iff (by simp) (by simp) (reached_oneMower 0) (storable_oneMower 0)
    (by decide) (by decide) (show (oneMower 0).byId.lookup 1 = some _ from rfl) rfl (by decide)).mpr ?_
    r' run⟩
  refine ⟨rfl, rfl, fun other inside _ _ => ?_⟩
  rw [mem_oneMower inside]

/-- The scope of a link-local address is not stored: packets from the mower
are not taken for its own, and requests go to an address without a scope. -/
theorem scope_not_recognised : ∃ dev r', (restarted 0 []).Reaches Machine.always (oneMower 2) ∧
    (oneMower 2).byId.lookup 1 = some dev ∧ Alive 120 dev ∧
    Restart "fc00::6:100:0:0" 1700000000 100 120 (oneMower 2) r' ∧ ¬ Recognised 120 r' dev := by
  obtain ⟨r', run⟩ := exists_restart "fc00::6:100:0:0" 1700000000 100 120 (oneMower 2)
  refine ⟨_, _, reached_oneMower 2, rfl, by decide, run, fun recognised => ?_⟩
  have keyed := keyed_reached (by simp) (by simp) (reached_oneMower 2)
  have same := storedAddr_of_recognised keyed (storable_oneMower 2) (by decide) (by decide) run
    (show (oneMower 2).byId.lookup 1 = some _ from rfl) (by decide) recognised
  exact absurd same (by decide)

end Lwm2mServer.Restarts
