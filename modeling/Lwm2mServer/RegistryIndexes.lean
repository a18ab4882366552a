import Lwm2mServer.Library.Machine
import Lwm2mServer.Registry

/-! The three maps of the device registry stay in step. `IndexesSound` is what
a reader of the registry relies on; `Sound` adds that ids are handed out in
order, which is what makes a new registration land on a free id.

What a call can do to the maps is said once. A registration refreshes a
device, moves it or adds one (`Registered`); every other call changes devices
without touching their identity and removes devices with their entries
(`Quiet`). Invariants of the registry are proved along these two relations. -/
namespace Lwm2mServer.RegistryIndexes
open Library DeviceRegistry

/-- The address index and the endpoint index point at devices that carry the
address and the endpoint they are indexed under, every device is found under
its endpoint, and a device's own id is the one it is stored under. -/
structure IndexesSound (r : DeviceRegistry) : Prop where
  byAddr : ∀ addr id, r.byAddr.lookup addr = some id →
    ∃ dev, r.byId.lookup id = some dev ∧ dev.addr = addr
  byEndpoint : ∀ endpoint id, r.byEndpoint.lookup endpoint = some id ↔
    ∃ dev, r.byId.lookup id = some dev ∧ dev.endpoint = endpoint
  ownId : ∀ id dev, r.byId.lookup id = some dev → dev.id = id

/-- The half of soundness that a lookup needs: an index entry points at a
device that carries the key. -/
structure IndexesResolve (r : DeviceRegistry) : Prop where
  byAddr : ∀ addr id, r.byAddr.lookup addr = some id →
    ∃ dev, r.byId.lookup id = some dev ∧ dev.addr = addr
  byEndpoint : ∀ endpoint id, r.byEndpoint.lookup endpoint = some id →
    ∃ dev, r.byId.lookup id = some dev ∧ dev.endpoint = endpoint

theorem IndexesSound.resolve {r : DeviceRegistry} (sound : IndexesSound r) : IndexesResolve r :=
  ⟨sound.byAddr, fun endpoint id => (sound.byEndpoint endpoint id).mp⟩

/-- Soundness together with the allocation order. -/
structure Sound (r : DeviceRegistry) : Prop extends IndexesSound r where
  allocated : ∀ id dev, r.byId.lookup id = some dev → id.toNat < r.nextId.toNat

/-! ## What a call can do to the maps -/

/-- The identity of a device: what the indexes are about. -/
def SameIdentity (dev changed : Device) : Prop :=
  changed.id = dev.id ∧ changed.endpoint = dev.endpoint ∧ changed.addr = dev.addr

/-- Devices may have changed, but none of them its identity. -/
structure KeepsIdentities (r r' : DeviceRegistry) : Prop where
  addrs : r'.byAddr = r.byAddr
  endpoints : r'.byEndpoint = r.byEndpoint
  next : r'.nextId = r.nextId
  devices : ∀ id, Option.Rel SameIdentity (r.byId.lookup id) (r'.byId.lookup id)

/-- A call that registers nobody: devices change in place and devices leave. -/
inductive Quiet : DeviceRegistry → DeviceRegistry → Prop where
  | update (kept : KeepsIdentities r r') : Quiet r r'
  | remove {id : UInt32} {dev : Device} (held : r.byId.lookup id = some dev) :
      Quiet r (r.removeDevice id dev dev.addr)
  | trans (first : Quiet r middle) (second : Quiet middle r') : Quiet r r'

/-- A registration, by what the endpoint index said before it. -/
inductive Registered (r : DeviceRegistry) (now : Instant) (endpoint : String) (addr : SocketAddr)
    (reg : Registration) : UInt32 × DeviceRegistry → Prop where
  | refreshed {id : UInt32} {dev : Device} (known : r.byEndpoint.lookup endpoint = some id)
      (held : r.byId.lookup id = some dev) (own : dev.endpoint = endpoint) (here : dev.addr = addr) :
      Registered r now endpoint addr reg (id, r.putDevice id (dev.refresh addr reg now))
  | moved {id : UInt32} {dev : Device} (known : r.byEndpoint.lookup endpoint = some id)
      (held : r.byId.lookup id = some dev) (own : dev.endpoint = endpoint) (elsewhere : dev.addr ≠ addr) :
      Registered r now endpoint addr reg (id, { r with
        byAddr := (r.byAddr.erase dev.addr).insert addr id
        byId := r.byId.insert id (dev.refresh addr reg now) })
  | added (unknown : r.byEndpoint.lookup endpoint = none) :
      Registered r now endpoint addr reg (r.nextId,
        ⟨r.byId.insert r.nextId (Device.new r.nextId endpoint addr reg now),
          r.byEndpoint.insert endpoint r.nextId, r.byAddr.insert addr r.nextId,
          max (r.nextId + 1) 1⟩)

variable {r r' : DeviceRegistry} {id : UInt32} {dev changed : Device} {addr : SocketAddr}

/-- The device that was registered is the one stored under the id returned. -/
theorem Registered.stored {now : Instant} {endpoint : String} {reg : Registration}
    {result : UInt32 × DeviceRegistry} (registered : Registered r now endpoint addr reg result) :
    ∃ dev, result.2.byId.lookup result.1 = some dev ∧ dev.endpoint = endpoint ∧
      dev.addr = addr := by
  cases registered with
  | @refreshed id dev known held own here =>
    exact ⟨dev.refresh addr reg now, by simp [putDevice], own, rfl⟩
  | @moved id dev known held own elsewhere =>
    exact ⟨dev.refresh addr reg now, by simp, own, rfl⟩
  | added unknown => exact ⟨Device.new r.nextId endpoint addr reg now, by simp, rfl, rfl⟩

theorem SameIdentity.refl (dev : Device) : SameIdentity dev dev := ⟨rfl, rfl, rfl⟩

theorem KeepsIdentities.forward (kept : KeepsIdentities r r') (held : r.byId.lookup id = some dev) :
    ∃ changed, r'.byId.lookup id = some changed ∧ SameIdentity dev changed := by
  have related := kept.devices id
  rw [held] at related
  cases found : r'.byId.lookup id with
  | none =>
    rw [found] at related
    cases related
  | some changed =>
    rw [found] at related
    cases related with
    | some same => exact ⟨changed, rfl, same⟩

theorem KeepsIdentities.backward (kept : KeepsIdentities r r')
    (held : r'.byId.lookup id = some changed) :
    ∃ dev, r.byId.lookup id = some dev ∧ SameIdentity dev changed := by
  have related := kept.devices id
  rw [held] at related
  cases found : r.byId.lookup id with
  | none =>
    rw [found] at related
    cases related
  | some dev =>
    rw [found] at related
    cases related with
    | some same => exact ⟨dev, rfl, same⟩

private theorem sameIdentity_rel (found : Option Device) : Option.Rel SameIdentity found found := by
  cases found with
  | none => exact .none
  | some dev => exact .some (.refl dev)

theorem Quiet.refl (r : DeviceRegistry) : Quiet r r :=
  .update ⟨rfl, rfl, rfl, fun id => sameIdentity_rel (r.byId.lookup id)⟩

theorem quiet_putDevice (held : r.byId.lookup id = some dev) (same : SameIdentity dev changed) :
    Quiet r (r.putDevice id changed) := by
  refine .update ⟨rfl, rfl, rfl, fun probe => ?_⟩
  simp only [putDevice, Table.lookup_insert_if]
  by_cases here : probe = id
  · rw [if_pos here, here, held]
    exact .some same
  · rw [if_neg here]
    exact sameIdentity_rel _

theorem quiet_mapVals (change : UInt32 → Device → Device)
    (same : ∀ id dev, SameIdentity dev (change id dev)) :
    Quiet r { r with byId := r.byId.mapVals change } := by
  refine .update ⟨rfl, rfl, rfl, fun id => ?_⟩
  rw [Table.lookup_mapVals]
  cases r.byId.lookup id with
  | none => exact .none
  | some dev => exact .some (same id dev)

/-! ## Soundness under each kind of change -/

private theorem ids_differ {other : UInt32} {kept : Device} (held : r.byId.lookup id = some dev)
    (stored : r.byId.lookup other = some kept) (different : kept ≠ dev) : other ≠ id := by
  rintro rfl
  rw [held] at stored
  cases stored
  exact different rfl

private theorem id_not_free {other : UInt32} {kept : Device} (free : r.byId.lookup id = none)
    (stored : r.byId.lookup other = some kept) : other ≠ id := by
  rintro rfl
  rw [free] at stored
  cases stored

theorem resolve_keep (resolve : IndexesResolve r) (kept : KeepsIdentities r r') :
    IndexesResolve r' where
  byAddr := by
    intro addr id found
    rw [kept.addrs] at found
    obtain ⟨dev, held, same⟩ := resolve.byAddr addr id found
    obtain ⟨changed, held', _, _, sameAddr⟩ := kept.forward held
    exact ⟨changed, held', sameAddr.trans same⟩
  byEndpoint := by
    intro endpoint id found
    rw [kept.endpoints] at found
    obtain ⟨dev, held, same⟩ := resolve.byEndpoint endpoint id found
    obtain ⟨changed, held', _, sameEndpoint, _⟩ := kept.forward held
    exact ⟨changed, held', sameEndpoint.trans same⟩

/-- Soundness is about identities only. -/
theorem indexes_keep (sound : IndexesSound r) (kept : KeepsIdentities r r') : IndexesSound r' where
  byAddr := (resolve_keep sound.resolve kept).byAddr
  byEndpoint := by
    refine fun endpoint id => ⟨(resolve_keep sound.resolve kept).byEndpoint endpoint id, ?_⟩
    rintro ⟨changed, held', same⟩
    obtain ⟨dev, held, _, sameEndpoint, _⟩ := kept.backward held'
    rw [kept.endpoints]
    exact (sound.byEndpoint endpoint id).mpr ⟨dev, held, sameEndpoint.symm.trans same⟩
  ownId := by
    intro id changed held'
    obtain ⟨dev, held, sameId, _, _⟩ := kept.backward held'
    exact sameId.trans (sound.ownId id dev held)

/-- Removing a device takes its address and endpoint entries with it: no other
entry of either index points at it. -/
theorem resolve_removeDevice (resolve : IndexesResolve r) (held : r.byId.lookup id = some dev) :
    IndexesResolve (r.removeDevice id dev dev.addr) where
  byAddr := by
    intro addr other found
    simp only [removeDevice, Table.lookup_erase_if] at found ⊢
    split at found
    · cases found
    · rename_i different
      obtain ⟨kept, held', same⟩ := resolve.byAddr addr other found
      have apart : other ≠ id := ids_differ held held' fun equal => different (equal ▸ same.symm)
      exact ⟨kept, by rw [if_neg apart]; exact held', same⟩
  byEndpoint := by
    intro endpoint other found
    simp only [removeDevice, Table.lookup_erase_if] at found ⊢
    split at found
    · cases found
    · rename_i different
      obtain ⟨kept, held', same⟩ := resolve.byEndpoint endpoint other found
      have apart : other ≠ id := ids_differ held held' fun equal => different (equal ▸ same.symm)
      exact ⟨kept, by rw [if_neg apart]; exact held', same⟩

theorem indexes_removeDevice (sound : IndexesSound r) (held : r.byId.lookup id = some dev) :
    IndexesSound (r.removeDevice id dev dev.addr) where
  byAddr := (resolve_removeDevice sound.resolve held).byAddr
  byEndpoint := by
    refine fun endpoint other =>
      ⟨(resolve_removeDevice sound.resolve held).byEndpoint endpoint other, ?_⟩
    simp only [removeDevice, Table.lookup_erase_if]
    rintro ⟨kept, held', same⟩
    split at held'
    · cases held'
    · rename_i apart
      have different : endpoint ≠ dev.endpoint := by
        rintro rfl
        have mine := (sound.byEndpoint dev.endpoint id).mpr ⟨dev, held, rfl⟩
        have theirs := (sound.byEndpoint dev.endpoint other).mpr ⟨kept, held', same⟩
        rw [mine] at theirs
        cases theirs
        exact apart rfl
      rw [if_neg different]
      exact (sound.byEndpoint endpoint other).mpr ⟨kept, held', same⟩
  ownId := by
    intro other kept held'
    simp only [removeDevice, Table.lookup_erase_if] at held'
    split at held'
    · cases held'
    · exact sound.ownId other kept held'

theorem resolve_quiet (resolve : IndexesResolve r) (quiet : Quiet r r') : IndexesResolve r' := by
  induction quiet with
  | update kept => exact resolve_keep resolve kept
  | remove held => exact resolve_removeDevice resolve held
  | trans _ _ first second => exact second (first resolve)

theorem indexes_quiet (sound : IndexesSound r) (quiet : Quiet r r') : IndexesSound r' := by
  induction quiet with
  | update kept => exact indexes_keep sound kept
  | remove held => exact indexes_removeDevice sound held
  | trans _ _ first second => exact second (first sound)

/-- Adding a device under a free id. The address may be in use: the index
entry then moves to the newcomer. -/
theorem resolve_addDevice (resolve : IndexesResolve r) (next : UInt32) (dev : Device)
    (free : r.byId.lookup dev.id = none) :
    IndexesResolve ⟨r.byId.insert dev.id dev, r.byEndpoint.insert dev.endpoint dev.id,
      r.byAddr.insert dev.addr dev.id, next⟩ where
  byAddr := by
    intro addr id found
    simp only [Table.lookup_insert_if] at found ⊢
    split at found
    · rename_i here
      cases found
      exact ⟨dev, if_pos rfl, here.symm⟩
    · obtain ⟨kept, held, same⟩ := resolve.byAddr addr id found
      exact ⟨kept, by rw [if_neg (id_not_free free held)]; exact held, same⟩
  byEndpoint := by
    intro endpoint id found
    simp only [Table.lookup_insert_if] at found ⊢
    split at found
    · rename_i here
      cases found
      exact ⟨dev, if_pos rfl, here.symm⟩
    · obtain ⟨kept, held, same⟩ := resolve.byEndpoint endpoint id found
      exact ⟨kept, by rw [if_neg (id_not_free free held)]; exact held, same⟩

/-- Adding a device under a free id and a free endpoint. -/
theorem indexes_addDevice (sound : IndexesSound r) (next : UInt32) (dev : Device)
    (free : r.byId.lookup dev.id = none) (unknown : r.byEndpoint.lookup dev.endpoint = none) :
    IndexesSound ⟨r.byId.insert dev.id dev, r.byEndpoint.insert dev.endpoint dev.id,
      r.byAddr.insert dev.addr dev.id, next⟩ where
  byAddr := (resolve_addDevice sound.resolve next dev free).byAddr
  byEndpoint := by
    refine fun endpoint id =>
      ⟨(resolve_addDevice sound.resolve next dev free).byEndpoint endpoint id, ?_⟩
    simp only [Table.lookup_insert_if]
    rintro ⟨kept, held, same⟩
    split at held
    · rename_i mine
      cases held
      rw [if_pos same.symm, mine]
    · have theirs := (sound.byEndpoint endpoint id).mpr ⟨kept, held, same⟩
      have different : endpoint ≠ dev.endpoint := by
        rintro rfl
        rw [unknown] at theirs
        cases theirs
      rw [if_neg different]
      exact theirs
  ownId := by
    intro id kept held
    simp only [Table.lookup_insert_if] at held
    split at held
    · rename_i mine
      cases held
      exact mine.symm
    · exact sound.ownId id kept held

/-- Moving a device to a new address takes its old index entry away; whoever
held the new address loses the entry for it. -/
theorem resolve_moveDevice (resolve : IndexesResolve r) (held : r.byId.lookup id = some dev)
    (sameEndpoint : changed.endpoint = dev.endpoint) (moved : changed.addr = addr) :
    IndexesResolve { r with
      byAddr := (r.byAddr.erase dev.addr).insert addr id
      byId := r.byId.insert id changed } where
  byAddr := by
    intro probe other found
    simp only [Table.lookup_insert_if, Table.lookup_erase_if] at found ⊢
    split at found
    · rename_i here
      cases found
      exact ⟨changed, if_pos rfl, moved.trans here.symm⟩
    · split at found
      · cases found
      · rename_i elsewhere
        obtain ⟨kept, held', same⟩ := resolve.byAddr probe other found
        have apart : other ≠ id := ids_differ held held' fun equal => elsewhere (equal ▸ same.symm)
        exact ⟨kept, by rw [if_neg apart]; exact held', same⟩
  byEndpoint := by
    intro endpoint other found
    obtain ⟨kept, held', same⟩ := resolve.byEndpoint endpoint other found
    simp only [Table.lookup_insert_if]
    by_cases here : other = id
    · subst other
      rw [held] at held'
      cases held'
      exact ⟨changed, if_pos rfl, sameEndpoint.trans same⟩
    · exact ⟨kept, by rw [if_neg here]; exact held', same⟩

theorem indexes_moveDevice (sound : IndexesSound r) (held : r.byId.lookup id = some dev)
    (sameId : changed.id = dev.id) (sameEndpoint : changed.endpoint = dev.endpoint)
    (moved : changed.addr = addr) :
    IndexesSound { r with
      byAddr := (r.byAddr.erase dev.addr).insert addr id
      byId := r.byId.insert id changed } where
  byAddr := (resolve_moveDevice sound.resolve held sameEndpoint moved).byAddr
  byEndpoint := by
    intro endpoint other
    rw [sound.byEndpoint]
    simp only [Table.lookup_insert_if]
    by_cases here : other = id
    · subst other
      simp [held, sameEndpoint]
    · simp [here]
  ownId := by
    intro other kept held'
    simp only [Table.lookup_insert_if] at held'
    split at held'
    · rename_i here
      cases held'
      rw [sameId, here]
      exact sound.ownId id dev held
    · exact sound.ownId other kept held'

section Registration
variable {now : Instant} {endpoint : String} {reg : Registration}
  {result : UInt32 × DeviceRegistry}

/-- A registration keeps the indexes resolving when a new endpoint finds its
id free. -/
theorem resolve_registered (resolve : IndexesResolve r)
    (registered : Registered r now endpoint addr reg result)
    (free : r.byEndpoint.lookup endpoint = none → r.byId.lookup r.nextId = none) :
    IndexesResolve result.2 := by
  cases registered with
  | refreshed known held own here =>
    exact resolve_quiet resolve (quiet_putDevice held ⟨rfl, rfl, here.symm⟩)
  | moved known held own elsewhere => exact resolve_moveDevice resolve held rfl rfl
  | added unknown =>
    exact resolve_addDevice resolve _ (Device.new r.nextId endpoint addr reg now) (free unknown)

theorem indexes_registered (sound : IndexesSound r)
    (registered : Registered r now endpoint addr reg result)
    (free : r.byEndpoint.lookup endpoint = none → r.byId.lookup r.nextId = none) :
    IndexesSound result.2 := by
  cases registered with
  | refreshed known held own here =>
    exact indexes_quiet sound (quiet_putDevice held ⟨rfl, rfl, here.symm⟩)
  | moved known held own elsewhere => exact indexes_moveDevice sound held rfl rfl rfl
  | added unknown =>
    exact indexes_addDevice sound _ (Device.new r.nextId endpoint addr reg now) (free unknown)
      unknown

end Registration

/-! ## The allocation order -/

/-- Every id in use has been handed out. -/
def Allocated (r : DeviceRegistry) : Prop :=
  ∀ id dev, r.byId.lookup id = some dev → id.toNat < r.nextId.toNat

theorem Allocated.free (allocated : Allocated r) : r.byId.lookup r.nextId = none := by
  cases held : r.byId.lookup r.nextId with
  | none => rfl
  | some dev => exact absurd (allocated _ dev held) (Nat.lt_irrefl _)

theorem allocated_quiet (allocated : Allocated r) (quiet : Quiet r r') : Allocated r' := by
  induction quiet with
  | update kept =>
    intro id changed held'
    obtain ⟨dev, held, _⟩ := kept.backward held'
    rw [kept.next]
    exact allocated id dev held
  | remove held =>
    intro other dev held'
    simp only [removeDevice, Table.lookup_erase_if] at held'
    split at held'
    · cases held'
    · exact allocated other dev held'
  | trans _ _ first second => exact second (first allocated)

theorem allocated_insert {next : UInt32} {byEndpoint : Table String UInt32}
    {byAddr : Table SocketAddr UInt32} (allocated : Allocated r) (dev : Device)
    (below : id.toNat < next.toNat) (grows : r.nextId.toNat ≤ next.toNat) :
    Allocated ⟨r.byId.insert id dev, byEndpoint, byAddr, next⟩ := by
  intro other kept held
  simp only [Table.lookup_insert_if] at held
  split at held
  · rename_i mine
    rw [mine]
    exact below
  · exact Nat.lt_of_lt_of_le (allocated other kept held) grows

/-- While the counter does not wrap, `wrapping_add(1).max(1)` adds one. -/
theorem advanced_toNat {next : UInt32} (nowrap : next.toNat + 1 < 2 ^ 32) :
    (max (next + 1) 1).toNat = next.toNat + 1 := by
  have sum : (next + 1).toNat = next.toNat + 1 := by
    rw [UInt32.toNat_add]
    exact Nat.mod_eq_of_lt nowrap
  change (if next + 1 ≤ 1 then 1 else next + 1).toNat = next.toNat + 1
  split
  · rename_i small
    rw [UInt32.le_iff_toNat_le, sum] at small
    simp only [UInt32.reduceToNat] at small ⊢
    omega
  · exact sum

theorem allocated_registered {now : Instant} {endpoint : String} {reg : Registration}
    {result : UInt32 × DeviceRegistry} (allocated : Allocated r)
    (registered : Registered r now endpoint addr reg result)
    (nowrap : r.byEndpoint.lookup endpoint = none → r.nextId.toNat + 1 < 2 ^ 32) :
    Allocated result.2 := by
  cases registered with
  | refreshed known held own here =>
    exact allocated_quiet allocated (quiet_putDevice held ⟨rfl, rfl, here.symm⟩)
  | moved known held own elsewhere =>
    exact allocated_insert allocated _ (allocated _ _ held) (Nat.le_refl _)
  | added unknown =>
    have next := advanced_toNat (nowrap unknown)
    refine allocated_insert allocated _ ?_ ?_
    · rw [next]
      exact Nat.lt_succ_self _
    · rw [next]
      exact Nat.le_succ _

/-- `restore` moves the counter past the id it inserts. -/
theorem restoreOne_nextId (now : Instant) (s : DeviceSnapshot) (nowrap : s.id.toNat + 1 < 2 ^ 32) :
    (r.restoreOne now s).nextId.toNat = max r.nextId.toNat (s.id.toNat + 1) := by
  have sum : (s.id + 1).toNat = s.id.toNat + 1 := by
    rw [UInt32.toNat_add]
    exact Nat.mod_eq_of_lt nowrap
  simp only [restoreOne]
  split
  · rename_i le
    rw [UInt32.le_iff_toNat_le] at le
    omega
  · rename_i gt
    rw [UInt32.le_iff_toNat_le] at gt
    omega

theorem allocated_restoreOne (allocated : Allocated r) (now : Instant) (s : DeviceSnapshot)
    (nowrap : s.id.toNat + 1 < 2 ^ 32) : Allocated (r.restoreOne now s) := by
  have next := restoreOne_nextId (r := r) now s nowrap
  refine allocated_insert allocated _ ?_ ?_
  · exact next ▸ Nat.lt_of_lt_of_le (Nat.lt_succ_self _) (Nat.le_max_right _ _)
  · exact next ▸ Nat.le_max_left _ _

/-! ## The methods -/

theorem indexes_new : IndexesSound .new where
  byAddr := by
    intro addr id found
    simp [new] at found
  byEndpoint := by
    intro endpoint id
    simp [new]
  ownId := by
    intro id dev held
    simp [new] at held

/-- A registration never panics and is one of the three. -/
theorem registered_register (resolve : IndexesResolve r) (now : Instant) (endpoint : String)
    (addr : SocketAddr) (reg : Registration) :
    ∃ result, r.register now endpoint addr reg = some result ∧
      Registered r now endpoint addr reg result := by
  cases known : r.byEndpoint.lookup endpoint with
  | some id =>
    obtain ⟨dev, held, own⟩ := resolve.byEndpoint endpoint id known
    by_cases same : dev.addr = addr
    · exact ⟨_, by simp [register, known, held, same], .refreshed known held own same⟩
    · exact ⟨_, by simp [register, known, held, same, putDevice], .moved known held own same⟩
  | none => exact ⟨_, by simp [register, known], .added known⟩

theorem indexes_restoreOne (sound : IndexesSound r) (now : Instant) (s : DeviceSnapshot)
    (free : r.byId.lookup s.id = none) (unknown : r.byEndpoint.lookup s.endpoint = none) :
    IndexesSound (r.restoreOne now s) :=
  indexes_addDevice sound _ (restoredDevice now s) free unknown

/-- Restoring snapshots with distinct ids and endpoints, none of which is in
use. -/
theorem indexes_restore (now : Instant) (snapshots : List DeviceSnapshot) (sound : IndexesSound r)
    (ids : (snapshots.map (·.id)).Nodup) (endpoints : (snapshots.map (·.endpoint)).Nodup)
    (unused : ∀ s ∈ snapshots, r.byId.lookup s.id = none ∧ r.byEndpoint.lookup s.endpoint = none) :
    IndexesSound (r.restore now snapshots) := by
  induction snapshots generalizing r with
  | nil => exact sound
  | cons s rest ih =>
    obtain ⟨newId, ids⟩ := List.nodup_cons.mp ids
    obtain ⟨newEndpoint, endpoints⟩ := List.nodup_cons.mp endpoints
    obtain ⟨free, unknown⟩ := unused s (by simp)
    refine ih (indexes_restoreOne sound now s free unknown) ids endpoints ?_
    intro other member
    have otherId : other.id ≠ s.id := fun same =>
      newId (List.mem_map.mpr ⟨other, member, same⟩)
    have otherEndpoint : other.endpoint ≠ s.endpoint := fun same =>
      newEndpoint (List.mem_map.mpr ⟨other, member, same⟩)
    have before := unused other (by simp [member])
    simpa [restoreOne, otherId, otherEndpoint] using before

theorem allocated_restore (now : Instant) (snapshots : List DeviceSnapshot)
    (allocated : Allocated r) (nowrap : ∀ s ∈ snapshots, s.id.toNat + 1 < 2 ^ 32) :
    Allocated (r.restore now snapshots) := by
  induction snapshots generalizing r with
  | nil => exact allocated
  | cons s rest ih =>
    refine ih (allocated_restoreOne allocated now s (nowrap s List.mem_cons_self)) ?_
    exact fun other member => nowrap other (List.mem_cons_of_mem s member)

theorem quiet_expireOne (acc : List String × List Reply × DeviceRegistry) (id : UInt32) :
    Quiet acc.2.2 (expireOne acc id).2.2 := by
  obtain ⟨removed, replies, r⟩ := acc
  simp only [expireOne]
  split
  · exact .refl r
  · rename_i dev held
    exact .remove held

theorem quiet_expireStale (now : Instant) (graceSecs : UInt32) :
    Quiet r (r.expireStale now graceSecs).2.2 := by
  unfold expireStale
  generalize (r.byId.values.filter (·.isExpired now graceSecs)).map (·.id) = expired
  suffices loop : ∀ acc : List String × List Reply × DeviceRegistry,
      Quiet acc.2.2 (expired.foldl expireOne acc).2.2 from loop ([], [], r)
  induction expired with
  | nil => exact fun acc => .refl acc.2.2
  | cons id rest ih => exact fun acc => .trans (quiet_expireOne acc id) (ih _)

theorem quiet_removeByAddr (resolve : IndexesResolve r) (addr : SocketAddr) :
    Quiet r (r.removeByAddr addr).2.2 := by
  cases found : r.byAddr.lookup addr with
  | none => simpa [removeByAddr, found] using Quiet.refl r
  | some id =>
    obtain ⟨dev, held, rfl⟩ := resolve.byAddr addr id found
    simpa [removeByAddr, found, held] using Quiet.remove held

/-- Methods that find a device by its address and change nothing the indexes
are about. -/
theorem quiet_changeByAddr (addr : SocketAddr) (change : Device → Device)
    (same : ∀ dev, SameIdentity dev (change dev)) :
    Quiet r (match r.byAddr.lookup addr with
      | none => r
      | some id => match r.byId.lookup id with
        | none => r
        | some dev => r.putDevice id (change dev)) := by
  split
  · exact .refl r
  · split
    · exact .refl r
    · rename_i dev held
      exact quiet_putDevice held (same dev)

theorem quiet_touch (resolve : IndexesResolve r) (now : Instant) (addr : SocketAddr) :
    ∃ came next, r.touch now addr = some (came, next) ∧ Quiet r next := by
  cases found : r.byAddr.lookup addr with
  | none => exact ⟨none, r, by simp [touch, found], .refl r⟩
  | some id =>
    obtain ⟨dev, held, here⟩ := resolve.byAddr addr id found
    by_cases online : dev.online = some true
    · refine ⟨none, r.putDevice id { dev with lastContact := now, addr },
        by simp [touch, found, held, online], ?_⟩
      exact quiet_putDevice held ⟨rfl, rfl, here.symm⟩
    · refine ⟨some dev.endpoint, r.putDevice id
        { dev with lastContact := now, addr, online := some true, offlineSince := none },
        by simp [touch, found, held, online], ?_⟩
      exact quiet_putDevice held ⟨rfl, rfl, here.symm⟩

theorem quiet_setDeviceOffline (now : Instant) (addr : SocketAddr) :
    Quiet r (r.setDeviceOffline now addr).2 := by
  unfold setDeviceOffline
  split
  · exact .refl r
  · split
    · exact .refl r
    · rename_i dev held
      split
      · exact quiet_putDevice held ⟨rfl, rfl, rfl⟩
      · exact .refl r

theorem quiet_takePingCandidates (now : Instant)
    (offlineInterval onlineInterval offlineMaxDuration : Nat) :
    Quiet r (r.takePingCandidates now offlineInterval onlineInterval offlineMaxDuration).2 := by
  refine quiet_mapVals _ fun id dev => ?_
  split <;> exact ⟨rfl, rfl, rfl⟩

theorem quiet_drainPending (resolve : IndexesResolve r) (addr : SocketAddr) :
    ∃ ops next, r.drainPending addr = some (ops, next) ∧ Quiet r next := by
  cases found : r.byAddr.lookup addr with
  | none => exact ⟨[], r, by simp [drainPending, found], .refl r⟩
  | some id =>
    obtain ⟨dev, held, _⟩ := resolve.byAddr addr id found
    refine ⟨dev.pendingOps, r.putDevice id { dev with pendingOps := [] },
      by simp [drainPending, found, held], ?_⟩
    exact quiet_putDevice held ⟨rfl, rfl, rfl⟩

theorem quiet_completeInFlight (addr : SocketAddr) (token : Token) :
    Quiet r (r.completeInFlight addr token).2 := by
  unfold completeInFlight
  split
  · exact .refl r
  · split
    · exact .refl r
    · rename_i dev held
      exact quiet_putDevice held ⟨rfl, rfl, rfl⟩

theorem quiet_mergeDeviceStateByAddr (resolve : IndexesResolve r) (addr : SocketAddr)
    (newState : Json) :
    ∃ state next, r.mergeDeviceStateByAddr addr newState = some (state, next) ∧ Quiet r next := by
  cases found : r.byAddr.lookup addr with
  | none => exact ⟨newState, r, by simp [mergeDeviceStateByAddr, found], .refl r⟩
  | some id =>
    obtain ⟨dev, held, _⟩ := resolve.byAddr addr id found
    refine ⟨dev.state.merge newState, r.putDevice id { dev with state := dev.state.merge newState },
      by simp [mergeDeviceStateByAddr, found, held], ?_⟩
    exact quiet_putDevice held ⟨rfl, rfl, rfl⟩

theorem quiet_restoreDeviceState (endpoint : String) (state : Json) :
    Quiet r (r.restoreDeviceState endpoint state) := by
  unfold restoreDeviceState
  split
  · exact .refl r
  · split
    · exact .refl r
    · rename_i dev held
      exact quiet_putDevice held ⟨rfl, rfl, rfl⟩

/-- An entry of the address index never dangles. -/
theorem byAddr_resolves (resolve : IndexesResolve r) (addr : SocketAddr) :
    r.byAddr.lookup addr = none ∨
      ∃ id dev, r.byAddr.lookup addr = some id ∧ r.byId.lookup id = some dev := by
  cases found : r.byAddr.lookup addr with
  | none => exact Or.inl rfl
  | some id =>
    obtain ⟨dev, held, _⟩ := resolve.byAddr addr id found
    exact Or.inr ⟨id, dev, rfl, held⟩

/-- An entry of the endpoint index never dangles. -/
theorem byEndpoint_resolves (resolve : IndexesResolve r) (endpoint : String) :
    r.byEndpoint.lookup endpoint = none ∨
      ∃ id dev, r.byEndpoint.lookup endpoint = some id ∧ r.byId.lookup id = some dev := by
  cases found : r.byEndpoint.lookup endpoint with
  | none => exact Or.inl rfl
  | some id =>
    obtain ⟨dev, held, _⟩ := resolve.byEndpoint endpoint id found
    exact Or.inr ⟨id, dev, rfl, held⟩

/-! ## Whole runs -/

/-- The endpoint a call registers, if it is a registration. -/
def registers : Op → Option String
  | .register _ endpoint _ _ => some endpoint
  | _ => none

/-- The counter does not wrap in this call: only a registration under a new
endpoint advances it. -/
def NextIdDoesNotWrap (r : DeviceRegistry) (op : Op) : Prop :=
  ∀ endpoint ∈ registers op, r.byEndpoint.lookup endpoint = none → r.nextId.toNat + 1 < 2 ^ 32

instance (r : DeviceRegistry) (op : Op) : Decidable (NextIdDoesNotWrap r op) :=
  inferInstanceAs (Decidable (∀ endpoint ∈ registers op, _ → _))

/-- Any other call never panics and registers nobody. -/
theorem quiet_apply (resolve : IndexesResolve r) (op : Op) (other : registers op = none) :
    ∃ next, r.apply op = some next ∧ Quiet r next := by
  cases op with
  | register now endpoint addr reg => cases other
  | renewRegistration now addr newLifetime =>
    exact ⟨_, rfl, quiet_changeByAddr addr _ fun dev => ⟨rfl, rfl, rfl⟩⟩
  | touch now addr =>
    obtain ⟨came, next, ran, quiet⟩ := quiet_touch resolve now addr
    exact ⟨next, by simp [apply, ran], quiet⟩
  | setDeviceOffline now addr => exact ⟨_, rfl, quiet_setDeviceOffline now addr⟩
  | takePingCandidates now offlineInterval onlineInterval offlineMaxDuration =>
    exact ⟨_, rfl, quiet_takePingCandidates now offlineInterval onlineInterval offlineMaxDuration⟩
  | drainPending addr =>
    obtain ⟨ops, next, ran, quiet⟩ := quiet_drainPending resolve addr
    exact ⟨next, by simp [apply, ran], quiet⟩
  | placeInFlight addr token op =>
    exact ⟨_, rfl, quiet_changeByAddr addr _ fun dev => ⟨rfl, rfl, rfl⟩⟩
  | isInFlight addr token =>
    refine ⟨r, ?_, .refl r⟩
    rcases byAddr_resolves resolve addr with missing | ⟨id, dev, found, held⟩
    · simp [apply, isInFlight, missing]
    · simp [apply, isInFlight, found, held]
  | completeInFlight addr token => exact ⟨_, rfl, quiet_completeInFlight addr token⟩
  | expireStale now graceSecs => exact ⟨_, rfl, quiet_expireStale now graceSecs⟩
  | endpointByAddr addr =>
    refine ⟨r, ?_, .refl r⟩
    rcases byAddr_resolves resolve addr with missing | ⟨id, dev, found, held⟩
    · simp [apply, endpointByAddr, missing]
    · simp [apply, endpointByAddr, found, held]
  | addrAndIdByEndpoint endpoint =>
    refine ⟨r, ?_, .refl r⟩
    rcases byEndpoint_resolves resolve endpoint with missing | ⟨id, dev, found, held⟩
    · simp [apply, addrAndIdByEndpoint, missing]
    · simp [apply, addrAndIdByEndpoint, found, held]
  | objectVersionsByAddr addr =>
    refine ⟨r, ?_, .refl r⟩
    rcases byAddr_resolves resolve addr with missing | ⟨id, dev, found, held⟩
    · simp [apply, objectVersionsByAddr, missing]
    · simp [apply, objectVersionsByAddr, found, held]
  | timeoutInFlight now maxSecs => exact ⟨_, rfl, quiet_mapVals _ fun id dev => ⟨rfl, rfl, rfl⟩⟩
  | mergeDeviceStateByAddr addr newState =>
    obtain ⟨state, next, ran, quiet⟩ := quiet_mergeDeviceStateByAddr resolve addr newState
    exact ⟨next, by simp [apply, ran], quiet⟩
  | removeByAddr addr => exact ⟨_, rfl, quiet_removeByAddr resolve addr⟩
  | deviceStateByEndpoint endpoint =>
    refine ⟨r, ?_, .refl r⟩
    rcases byEndpoint_resolves resolve endpoint with missing | ⟨id, dev, found, held⟩
    · simp [apply, deviceStateByEndpoint, missing]
    · simp [apply, deviceStateByEndpoint, found, held]
  | restoreDeviceState endpoint state => exact ⟨_, rfl, quiet_restoreDeviceState endpoint state⟩

/-- No call made in a registry with sound indexes panics. -/
theorem apply_no_panic (resolve : IndexesResolve r) (op : Op) : r.apply op ≠ none := by
  cases kind : registers op with
  | none =>
    obtain ⟨next, ran, _⟩ := quiet_apply resolve op kind
    rw [ran]
    exact Option.some_ne_none next
  | some endpoint =>
    cases op with
    | register now endpoint addr reg =>
      obtain ⟨result, ran, _⟩ := registered_register resolve now endpoint addr reg
      simp [apply, ran]
    | _ => cases kind

/-- A call that returns is a registration or a quiet one. -/
theorem apply_cases (resolve : IndexesResolve r) {op : Op} (ran : r.apply op = some r') :
    Quiet r r' ∧ registers op = none ∨
      ∃ now endpoint addr reg id, op = .register now endpoint addr reg ∧
        Registered r now endpoint addr reg (id, r') := by
  cases kind : registers op with
  | none =>
    obtain ⟨next, ran', quiet⟩ := quiet_apply resolve op kind
    rw [ran] at ran'
    cases ran'
    exact Or.inl ⟨quiet, rfl⟩
  | some endpoint =>
    cases op with
    | register now endpoint addr reg =>
      obtain ⟨⟨id, next⟩, ran', registered⟩ := registered_register resolve now endpoint addr reg
      have same : next = r' := by
        simpa [apply, ran'] using ran
      subst same
      exact Or.inr ⟨now, endpoint, addr, reg, id, rfl, registered⟩
    | _ => cases kind

/-- One call keeps the registry sound. -/
theorem sound_apply (sound : Sound r) {op : Op} (nowrap : NextIdDoesNotWrap r op)
    (ran : r.apply op = some r') : Sound r' := by
  rcases apply_cases sound.resolve ran with
    ⟨quiet, _⟩ | ⟨now, endpoint, addr, reg, id, rfl, registered⟩
  · exact ⟨indexes_quiet sound.toIndexesSound quiet, allocated_quiet sound.allocated quiet⟩
  · have free := Allocated.free sound.allocated
    exact ⟨indexes_registered sound.toIndexesSound registered fun _ => free,
      allocated_registered sound.allocated registered (nowrap endpoint rfl)⟩

/-- A registry at start-up: empty, or restored into an empty one from
snapshots with distinct ids and endpoints, the counter not wrapping past the
largest id. -/
inductive Initial : DeviceRegistry → Prop where
  | empty : Initial .new
  | restored (now : Instant) (snapshots : List DeviceSnapshot)
      (ids : (snapshots.map (·.id)).Nodup) (endpoints : (snapshots.map (·.endpoint)).Nodup)
      (nowrap : ∀ s ∈ snapshots, s.id.toNat + 1 < 2 ^ 32) :
      Initial (DeviceRegistry.new.restore now snapshots)

theorem sound_initial (initial : Initial r) : Sound r := by
  have empty : Allocated .new := fun id dev held => by simp [new] at held
  cases initial with
  | empty => exact ⟨indexes_new, empty⟩
  | restored now snapshots ids endpoints nowrap =>
    exact ⟨indexes_restore now snapshots indexes_new ids endpoints fun s _ => by simp [new],
      allocated_restore now snapshots empty nowrap⟩

/-- The registry as a machine: any call may come next. -/
def registry : Machine DeviceRegistry Op := ⟨Initial, apply⟩

theorem reached_sound (reached : registry.Reaches NextIdDoesNotWrap r) : Sound r := by
  refine reached.invariant Sound (fun _ initial => sound_initial initial) ?_
  intro r op next _ sound nowrap ran
  exact sound_apply sound nowrap ran

/-- **The indexes agree in every reachable registry**, whatever addresses
devices share or move to, and no call made there panics. -/
theorem reached_indexes_sound (reached : registry.Reaches NextIdDoesNotWrap r) :
    IndexesSound r ∧ ∀ op, r.apply op ≠ none := by
  have sound := reached_sound reached
  exact ⟨sound.toIndexesSound, apply_no_panic sound.resolve⟩

/-- Two devices persisted with one address between them. -/
def sharedAddress : SocketAddr := .v6 0xfc000006010000000000000000000001 20017 0 0

def persisted (id : UInt32) (endpoint : String) : DeviceSnapshot :=
  { id, endpoint, addr := sharedAddress, lifetime := 86400, objects := [], objectVersions := ∅
    lwm2mVersion := "1.1", bindingMode := "U", endOfLife := 1700000000 }

/-- One of them moves away, a third device takes the address over, and a
deregistration comes from there. -/
def takeOver : List Op :=
  [.register 1 "pump" (.v4 1 20017) ⟨60, [], ∅, "1.1", "U"⟩,
    .register 2 "sensor" sharedAddress ⟨60, [], ∅, "1.1", "U"⟩,
    .removeByAddr sharedAddress, .touch 3 (.v4 1 20017)]

theorem shared_address_run_sound :
    ∃ r, registry.exec NextIdDoesNotWrap
        (DeviceRegistry.new.restore 0 [persisted 7 "pump", persisted 3 "mower"]) takeOver = some r ∧
      r.byEndpoint.lookup "sensor" = none ∧ IndexesSound r ∧ ∀ op, r.apply op ≠ none := by
  have restart : Initial (DeviceRegistry.new.restore 0 [persisted 7 "pump", persisted 3 "mower"]) :=
    .restored 0 _ (by decide) (by decide) (by decide)
  obtain ⟨r, ran, reached, gone⟩ := registry.exec_reaches NextIdDoesNotWrap _ takeOver
    (fun r => decide (r.byEndpoint.lookup "sensor" = none)) restart (by decide +kernel)
  exact ⟨r, ran, of_decide_eq_true gone, reached_indexes_sound reached⟩

end Lwm2mServer.RegistryIndexes
