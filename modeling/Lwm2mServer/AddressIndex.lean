import Lwm2mServer.RegistryIndexes

/-! Which device a packet is attributed to. The address index holds one id for
an address, so a device is found at its own address only while nobody else has
registered from there. `AddressFree` is the condition on a call under which
this stays so; `found_step_iff` shows that it is the weakest one. -/
namespace Lwm2mServer.AddressIndex
open Library DeviceRegistry RegistryIndexes

variable {r r' : DeviceRegistry}

/-- Every registered endpoint is the one `endpoint_by_addr` returns for the
address stored with it. -/
def FoundAtOwnAddress (r : DeviceRegistry) : Prop :=
  ∀ endpoint addr id versions, r.addrAndIdByEndpoint endpoint = some (some (addr, id, versions)) →
    r.endpointByAddr addr = some (some endpoint)

/-- No other device is stored with the address that is being registered, and
the id a new endpoint gets is not in use. -/
def AddressFree (r : DeviceRegistry) : Op → Prop
  | .register _ endpoint addr _ =>
    (∀ dev ∈ r.byId.values, dev.addr = addr → dev.endpoint = endpoint) ∧
      (r.byEndpoint.lookup endpoint = none → r.byId.lookup r.nextId = none)
  | _ => True

instance (r : DeviceRegistry) (op : Op) : Decidable (AddressFree r op) := by
  cases op <;> unfold AddressFree <;> infer_instance

/-- Every device is indexed under its own address. -/
def Indexed (r : DeviceRegistry) : Prop :=
  ∀ id dev, r.byId.lookup id = some dev → r.byAddr.lookup dev.addr = some id

theorem found_iff_indexed (sound : IndexesSound r) : FoundAtOwnAddress r ↔ Indexed r := by
  constructor
  · intro found id dev held
    have known := (sound.byEndpoint dev.endpoint id).mpr ⟨dev, held, rfl⟩
    have here := found dev.endpoint dev.addr id dev.objectVersions
      (by simp [addrAndIdByEndpoint, known, held])
    rcases byAddr_resolves sound.resolve dev.addr with missing | ⟨other, at_, index, stored⟩
    · simp [endpointByAddr, missing] at here
    · have owner : at_.endpoint = dev.endpoint := by
        simpa [endpointByAddr, index, stored] using here
      have same := (sound.byEndpoint dev.endpoint other).mpr ⟨at_, stored, owner⟩
      rw [known] at same
      cases same
      exact index
  · intro indexed endpoint addr id versions known
    rcases byEndpoint_resolves sound.resolve endpoint with missing | ⟨other, dev, found, held⟩
    · simp [addrAndIdByEndpoint, missing] at known
    · obtain ⟨_, stored, owner⟩ := (sound.byEndpoint endpoint other).mp found
      rw [held] at stored
      cases stored
      have here : dev.addr = addr := by
        simp only [addrAndIdByEndpoint, found, held, Option.map_some, Option.some.injEq,
          Prod.mk.injEq] at known
        exact known.1
      have index := indexed other dev held
      rw [here] at index
      simp [endpointByAddr, index, held, owner]

/-! ## One call -/

/-- A call that registers nobody takes an index entry away only with the
device it belongs to. -/
theorem indexed_quiet (indexed : Indexed r) (quiet : Quiet r r') : Indexed r' := by
  induction quiet with
  | update kept =>
    intro id changed held'
    obtain ⟨dev, held, _, _, sameAddr⟩ := kept.backward held'
    rw [kept.addrs, sameAddr]
    exact indexed id dev held
  | remove held =>
    intro other kept held'
    simp only [removeDevice, Table.lookup_erase_if] at held' ⊢
    split at held'
    · cases held'
    · rename_i apart
      rw [if_neg]
      · exact indexed other kept held'
      · intro shared
        have mine := indexed _ _ held
        rw [← shared, indexed other kept held'] at mine
        cases mine
        exact apart rfl
  | trans _ _ first second => exact second (first indexed)

section Registration
variable {now : Instant} {endpoint : String} {addr : SocketAddr} {reg : Registration} {id : UInt32}
  {dev : Device}

/-- What the condition says of a device stored under an id. -/
theorem AddressFree.owner (free : AddressFree r (.register now endpoint addr reg))
    (held : r.byId.lookup id = some dev) (here : dev.addr = addr) : dev.endpoint = endpoint :=
  free.1 dev (Table.mem_values.mpr ⟨id, held⟩) here

/-- A device that re-registers where it is indexed meets the condition. -/
private theorem free_of_indexed (indexed : Indexed r)
    (known : r.byEndpoint.lookup endpoint = some id) (held : r.byId.lookup id = some dev)
    (own : dev.endpoint = endpoint) (here : dev.addr = addr) :
    AddressFree r (.register now endpoint addr reg) := by
  refine ⟨fun other member at_ => ?_, fun unknown => ?_⟩
  · obtain ⟨otherId, stored⟩ := Table.mem_values.mp member
    have mine := indexed id dev held
    have theirs := indexed otherId other stored
    rw [here] at mine
    rw [at_, mine] at theirs
    cases theirs
    rw [held] at stored
    cases stored
    exact own
  · rw [known] at unknown
    cases unknown

/-- Two devices at one address cannot both be indexed there. -/
private theorem free_of_next (id : UInt32) (index : r'.byAddr.lookup addr = some id) (indexed : Indexed r')
    (kept : ∀ other at_, other ≠ id → r.byId.lookup other = some at_ →
      r'.byId.lookup other = some at_)
    (mine : ∀ at_, r.byId.lookup id = some at_ → at_.endpoint = endpoint) :
    ∀ at_ ∈ r.byId.values, at_.addr = addr → at_.endpoint = endpoint := by
  intro at_ member here
  obtain ⟨other, stored⟩ := Table.mem_values.mp member
  by_cases same : other = id
  · subst other
    exact mine at_ stored
  · have theirs := indexed other at_ (kept other at_ same stored)
    rw [here, index] at theirs
    cases theirs
    exact absurd rfl same

private theorem moved_iff (sound : IndexesSound r) (indexed : Indexed r)
    (known : r.byEndpoint.lookup endpoint = some id) (held : r.byId.lookup id = some dev)
    (own : dev.endpoint = endpoint) :
    Indexed { r with
        byAddr := (r.byAddr.erase dev.addr).insert addr id
        byId := r.byId.insert id (dev.refresh addr reg now) } ↔
      AddressFree r (.register now endpoint addr reg) := by
  constructor
  · intro next
    refine ⟨free_of_next id (by simp) next ?_ ?_, fun unknown => ?_⟩
    · intro other at_ apart stored
      simpa [apart] using stored
    · intro at_ stored
      rw [held] at stored
      cases stored
      exact own
    · rw [known] at unknown
      cases unknown
  · intro free other kept stored
    simp only [Table.lookup_insert_if, Table.lookup_erase_if] at stored ⊢
    split at stored
    · rename_i same
      cases stored
      rw [same]
      exact if_pos rfl
    · rename_i apart
      have notHere : kept.addr ≠ addr := by
        intro here
        have mine := (sound.byEndpoint endpoint other).mpr ⟨kept, stored, free.owner stored here⟩
        rw [known] at mine
        cases mine
        exact apart rfl
      have notThere : kept.addr ≠ dev.addr := by
        intro there
        have mine := indexed id dev held
        rw [← there, indexed other kept stored] at mine
        cases mine
        exact apart rfl
      rw [if_neg notHere, if_neg notThere]
      exact indexed other kept stored

private theorem added_iff (sound : IndexesSound r) (indexed : Indexed r)
    (unknown : r.byEndpoint.lookup endpoint = none) (unused : r.byId.lookup r.nextId = none) :
    Indexed ⟨r.byId.insert r.nextId (Device.new r.nextId endpoint addr reg now),
        r.byEndpoint.insert endpoint r.nextId, r.byAddr.insert addr r.nextId,
        max (r.nextId + 1) 1⟩ ↔
      AddressFree r (.register now endpoint addr reg) := by
  constructor
  · intro next
    refine ⟨free_of_next r.nextId (by simp) next ?_ ?_, fun _ => unused⟩
    · intro other at_ apart stored
      simpa [apart] using stored
    · intro at_ stored
      rw [unused] at stored
      cases stored
  · intro free other kept stored
    simp only [Table.lookup_insert_if] at stored ⊢
    split at stored
    · rename_i same
      cases stored
      rw [same]
      exact if_pos rfl
    · have notHere : kept.addr ≠ addr := by
        intro here
        have mine := (sound.byEndpoint endpoint other).mpr ⟨kept, stored, free.owner stored here⟩
        rw [unknown] at mine
        cases mine
      rw [if_neg notHere]
      exact indexed other kept stored

private theorem indexed_registered_iff {result : UInt32 × DeviceRegistry} (sound : IndexesSound r)
    (indexed : Indexed r) (registered : Registered r now endpoint addr reg result)
    (unused : r.byEndpoint.lookup endpoint = none → r.byId.lookup r.nextId = none) :
    Indexed result.2 ↔ AddressFree r (.register now endpoint addr reg) := by
  cases registered with
  | refreshed known held own here =>
    refine iff_of_true ?_ (free_of_indexed indexed known held own here)
    exact indexed_quiet indexed (quiet_putDevice held ⟨rfl, rfl, here.symm⟩)
  | moved known held own elsewhere => exact moved_iff sound indexed known held own
  | added unknown => exact added_iff sound indexed unknown (unused unknown)

/-- A new endpoint that is given an id in use takes over the device of another
endpoint, which is then found under the newcomer's name. -/
private theorem not_found_of_used {result : UInt32 × DeviceRegistry} (sound : IndexesSound r)
    (registered : Registered r now endpoint addr reg result)
    (unknown : r.byEndpoint.lookup endpoint = none) (used : r.byId.lookup r.nextId = some dev) :
    ¬ FoundAtOwnAddress result.2 := by
  intro found
  have victim := (sound.byEndpoint dev.endpoint r.nextId).mpr ⟨dev, used, rfl⟩
  have apart : dev.endpoint ≠ endpoint := by
    intro same
    rw [same, unknown] at victim
    cases victim
  cases registered with
  | refreshed known =>
    rw [unknown] at known
    cases known
  | moved known =>
    rw [unknown] at known
    cases known
  | added =>
    have here := found dev.endpoint addr r.nextId reg.objectVersions
      (by simp [addrAndIdByEndpoint, apart, victim, Device.new])
    have same : endpoint = dev.endpoint := by
      simpa [endpointByAddr, Device.new] using here
    exact apart same.symm

end Registration

/-- **Where every device is found at its own address, a call keeps it so
exactly if it meets the condition.** -/
theorem found_step_iff (sound : IndexesSound r) (found : FoundAtOwnAddress r) {op : Op}
    (ran : r.apply op = some r') : FoundAtOwnAddress r' ↔ AddressFree r op := by
  have indexed := (found_iff_indexed sound).mp found
  rcases apply_cases sound.resolve ran with ⟨quiet, other⟩ | ⟨now, endpoint, addr, reg, id, rfl, registered⟩
  · have next := (found_iff_indexed (indexes_quiet sound quiet)).mpr (indexed_quiet indexed quiet)
    cases op with
    | register => cases other
    | _ => exact iff_of_true next trivial
  · by_cases unused : r.byEndpoint.lookup endpoint = none → r.byId.lookup r.nextId = none
    · rw [found_iff_indexed (indexes_registered sound registered unused)]
      exact indexed_registered_iff sound indexed registered unused
    · obtain ⟨unknown, used⟩ := Classical.not_imp.mp unused
      obtain ⟨dev, held⟩ := Option.ne_none_iff_exists'.mp used
      exact iff_of_false (not_found_of_used sound registered unknown held)
        fun free => used (free.2 unknown)

/-! ## Whole runs -/

/-- The registry with every call, started from persisted devices no two of
which share an id, an endpoint or an address; from none at all when the list
is empty. -/
def addressed : Machine DeviceRegistry Op where
  start r := ∃ now snapshots, (snapshots.map (·.id)).Nodup ∧ (snapshots.map (·.endpoint)).Nodup ∧
    (snapshots.map (·.addr)).Nodup ∧ r = DeviceRegistry.new.restore now snapshots
  step := apply

theorem indexed_restore (now : Instant) (snapshots : List DeviceSnapshot) (indexed : Indexed r)
    (ids : (snapshots.map (·.id)).Nodup) (addrs : (snapshots.map (·.addr)).Nodup)
    (unused : ∀ s ∈ snapshots, ∀ id dev, r.byId.lookup id = some dev →
      id ≠ s.id ∧ dev.addr ≠ s.addr) : Indexed (r.restore now snapshots) := by
  induction snapshots generalizing r with
  | nil => exact indexed
  | cons s rest ih =>
    obtain ⟨newId, ids⟩ := List.nodup_cons.mp ids
    obtain ⟨newAddr, addrs⟩ := List.nodup_cons.mp addrs
    refine ih ?_ ids addrs ?_
    · intro id dev held
      simp only [restoreOne, Table.lookup_insert_if] at held ⊢
      split at held
      · rename_i same
        cases held
        rw [same]
        exact if_pos rfl
      · rw [if_neg (unused s List.mem_cons_self id dev held).2]
        exact indexed id dev held
    · intro other member id dev held
      simp only [restoreOne, Table.lookup_insert_if] at held
      split at held
      · rename_i same
        cases held
        rw [same]
        exact ⟨fun equal => newId (List.mem_map.mpr ⟨other, member, equal.symm⟩),
          fun equal => newAddr (List.mem_map.mpr ⟨other, member, equal.symm⟩)⟩
      · exact unused other (List.mem_cons_of_mem s member) id dev held

theorem start_found (initial : addressed.start r) : IndexesSound r ∧ FoundAtOwnAddress r := by
  obtain ⟨now, snapshots, ids, endpoints, addrs, rfl⟩ := initial
  have sound := indexes_restore now snapshots indexes_new ids endpoints fun s _ => by simp [new]
  refine ⟨sound, (found_iff_indexed sound).mpr ?_⟩
  refine indexed_restore now snapshots ?_ ids addrs ?_
  · intro id dev held
    simp [new] at held
  · intro s member id dev held
    simp [new] at held

theorem reached_found (reached : addressed.Reaches AddressFree r) :
    IndexesSound r ∧ FoundAtOwnAddress r := by
  refine reached.invariant (fun r => IndexesSound r ∧ FoundAtOwnAddress r)
    (fun _ initial => start_found initial) ?_
  rintro r op next - ⟨sound, found⟩ free ran
  refine ⟨?_, (found_step_iff sound found ran).mpr free⟩
  rcases apply_cases sound.resolve ran with ⟨quiet, _⟩ | ⟨now, endpoint, addr, reg, id, rfl, registered⟩
  · exact indexes_quiet sound quiet
  · exact indexes_registered sound registered free.2

/-- **Every registered device is found at its own address** in a run whose
registrations take free addresses; a registration then puts its endpoint at
its address, and the first call that does not meet the condition breaks the
property. -/
theorem reached_found_at_own_address (reached : addressed.Reaches AddressFree r) :
    FoundAtOwnAddress r ∧
      (∀ now endpoint addr reg id next, AddressFree r (.register now endpoint addr reg) →
        r.register now endpoint addr reg = some (id, next) →
        next.endpointByAddr addr = some (some endpoint)) ∧
      ∀ op next, r.apply op = some next → (FoundAtOwnAddress next ↔ AddressFree r op) := by
  obtain ⟨sound, found⟩ := reached_found reached
  refine ⟨found, ?_, fun op next ran => found_step_iff sound found ran⟩
  intro now endpoint addr reg id next free ran
  have called : r.apply (.register now endpoint addr reg) = some next := by
    simp [apply, ran]
  have soundNext := (reached_found (.step reached free called)).1
  have foundNext := (found_step_iff sound found called).mpr free
  obtain ⟨result, same, registered⟩ := registered_register sound.resolve now endpoint addr reg
  rw [ran] at same
  cases same
  obtain ⟨dev, held, own, here⟩ := registered.stored
  have index := (found_iff_indexed soundNext).mp foundNext id dev held
  rw [here] at index
  simp [endpointByAddr, index, held, own]

/-- A second device registers from the address of the first. -/
def secondFromSameAddress : List Op :=
  [.register 1 "mower" sharedAddress ⟨86400, [], ∅, "1.1", "U"⟩,
    .register 2 "pump" sharedAddress ⟨86400, [], ∅, "1.1", "U"⟩]

/-- The first device is registered, but packets from its address are
attributed to the second. -/
theorem attributed_to_second_device :
    ∃ r, addressed.Reaches Machine.always r ∧ ¬ FoundAtOwnAddress r := by
  have empty : addressed.start .new := ⟨0, [], by simp, by simp, by simp, rfl⟩
  obtain ⟨r, _, reached, seen⟩ := addressed.exec_reaches Machine.always _ secondFromSameAddress
    (fun r => (r.addrAndIdByEndpoint "mower").any (fun found => found.any (·.1 = sharedAddress)) &&
      r.endpointByAddr sharedAddress = some (some "pump")) empty (by decide +kernel)
  refine ⟨r, reached, fun found => ?_⟩
  obtain ⟨registered, attributed⟩ := Bool.and_eq_true_iff.mp seen
  obtain ⟨known, called, registered⟩ := (Option.any_eq_true _ _).mp registered
  obtain ⟨⟨addr, id, versions⟩, rfl, here⟩ := (Option.any_eq_true _ _).mp registered
  have at_ : addr = sharedAddress := of_decide_eq_true here
  have mine := found "mower" addr id versions called
  rw [at_, of_decide_eq_true attributed] at mine
  exact absurd mine (by decide)

/-- Devices that move, leave and come back, each from an address of its own. -/
def ownAddresses : List Op :=
  [.register 1 "mower" (.v4 1 20017) ⟨60, [], ∅, "1.1", "U"⟩,
    .register 2 "pump" (.v4 2 20017) ⟨60, [], ∅, "1.1", "U"⟩,
    .register 3 "mower" (.v4 3 20017) ⟨60, [], ∅, "1.1", "U"⟩,
    .register 4 "sensor" (.v4 1 20017) ⟨60, [], ∅, "1.1", "U"⟩, .removeByAddr (.v4 2 20017)]

theorem found_at_own_addresses :
    ∃ r, addressed.exec AddressFree (DeviceRegistry.new.restore 0 [persisted 7 "valve"])
        ownAddresses = some r ∧ FoundAtOwnAddress r ∧
      r.endpointByAddr sharedAddress = some (some "valve") := by
  have restart : addressed.start (DeviceRegistry.new.restore 0 [persisted 7 "valve"]) :=
    ⟨0, [persisted 7 "valve"], by simp, by simp, by simp, rfl⟩
  obtain ⟨r, ran, reached, seen⟩ := addressed.exec_reaches AddressFree _ ownAddresses
    (fun r => r.endpointByAddr sharedAddress = some (some "valve")) restart (by decide +kernel)
  exact ⟨r, ran, (reached_found_at_own_address reached).1, of_decide_eq_true seen⟩

end Lwm2mServer.AddressIndex
