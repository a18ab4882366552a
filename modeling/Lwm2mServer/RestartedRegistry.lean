import Lwm2mServer.AddressText
import Lwm2mServer.DeviceRecords
import Lwm2mServer.RestoredRegistry

/-! A restart: the registry is snapshot, saved, loaded and restored. The first
part says what `load_registry` makes of an entry `save_registry` wrote; the
second follows a device through any number of restarts. Times are whole
seconds, and the wall clock stays `wall` seconds ahead of the monotonic one. -/
namespace Lwm2mServer.RestartedRegistry
open Library DeviceRecords DeviceRegistry RegistryIndexes AddressText

variable {r : DeviceRegistry} {s : DeviceSnapshot} {sessionTo : String} {now : Nat}

/-! ## One entry -/

/-- The address an entry is loaded with: scope and flow label are not stored,
and only IPv6 text is read. -/
def storedAddr : SocketAddr → SocketAddr
  | .v6 ip port _ _ => .v6 ip port 0 0
  | .v4 _ port => .v6 ipv6Localhost port 0 0

/-- The path an object is loaded with. -/
def storedPath (id : UInt32) : String := toString id.toNat ++ "/0"

/-- One object of an entry with its version. -/
def storeObject (version : UInt32 → String) (acc : List String × Table UInt32 String) (id : UInt32) :
    List String × Table UInt32 String :=
  (acc.1 ++ [storedPath id],
    if version id = "" then acc.2 else acc.2.insert id (version id))

/-- The version of an object id, empty when there is none. -/
def savedVersion (s : DeviceSnapshot) (id : UInt32) : String := ((objectMap s).lookup id).getD ""

/-- The objects and versions an entry is loaded with. -/
def storedObjects (s : DeviceSnapshot) : List String × Table UInt32 String :=
  (objectIds s).foldl (storeObject (savedVersion s)) ([], ∅)

/-- A snapshot after it was saved and loaded. -/
def reloaded (now : Nat) (s : DeviceSnapshot) : DeviceSnapshot :=
  { s with
    addr := storedAddr s.addr
    lifetime := UInt32.ofNat (s.endOfLife - now)
    objects := (storedObjects s).1
    objectVersions := (storedObjects s).2 }

theorem sgtinFromEp_urn (plain : ':' ∉ s.endpoint.toList) :
    sgtinFromEp ("urn:dev:sg:" ++ s.endpoint) = s.endpoint := by
  have text : ("urn:dev:sg:" ++ s.endpoint).toList.reverse =
      s.endpoint.toList.reverse ++ ':' :: "urn:dev:sg".toList.reverse := by
    rw [String.toList_append, List.reverse_append]
    rfl
  have clean : ∀ c ∈ s.endpoint.toList.reverse, decide (c ≠ ':') = true := by
    intro c member
    refine decide_eq_true fun colon => plain ?_
    rw [← colon]
    exact List.mem_reverse.mp member
  rw [sgtinFromEp, text, List.takeWhile_append_of_pos clean]
  simp

theorem asU64_ofNat {n : Nat} (small : n < 2 ^ 64) : Json.asU64 (.int n) = some n := by
  simp only [Json.asU64, Int.toNat_natCast]
  exact if_pos ⟨Int.natCast_nonneg n, small⟩

private theorem storedPort (port : UInt16) :
    UInt16.ofNat ((Json.asU64 (.int port.toNat)).getD 0) = port := by
  rw [asU64_ofNat (Nat.lt_trans port.toNat_lt (by decide))]
  simp

theorem storedId (id : UInt32) :
    UInt32.ofNat ((Json.asU64 (.int id.toNat)).getD 0) = id := by
  rw [asU64_ofNat (Nat.lt_trans id.toNat_lt (by decide))]
  simp

/-- The fields of an entry, as `load_registry` reads them. -/
structure Fields (client : Json) (s : DeviceSnapshot) : Prop where
  ep : client.get "ep" = .str ("urn:dev:sg:" ++ s.endpoint)
  regId : client.get "reg_id" = .int s.id.toNat
  lwm2m : client.get "lwm2m" = .str s.lwm2mVersion
  binding : client.get "b" = .str s.bindingMode
  endOfLife : client.get "end_of_life" = .int s.endOfLife
  objects : client.get "objects" = .arr (saveObjects s)
  session : (client.get "session").get "id" =
    .arr [.str (addrText s.addr).1, .int (addrText s.addr).2.toNat]

theorem fields_saveClient (index : Nat) : Fields (saveClient sessionTo index s) s := by
  constructor <;>
    simp [saveClient, Json.get, Json.object, Json.field_setField]

theorem loadAddr_saveClient (index : Nat) :
    loadAddr (saveClient sessionTo index s) = storedAddr s.addr := by
  rw [loadAddr, (fields_saveClient index).session]
  cases s.addr with
  | v6 ip port flowinfo scopeId =>
    simp [addrText, storedAddr, Json.asArray, Json.asStr, parseIpv6_ipv6Text, storedPort]
  | v4 ip port =>
    simp [addrText, storedAddr, Json.asArray, Json.asStr, parseIpv6_ipv4Text, storedPort]

theorem loadObjects_saveClient (index : Nat) :
    loadObjects (saveClient sessionTo index s) = storedObjects s := by
  rw [loadObjects, (fields_saveClient index).objects]
  simp only [Json.asArray, saveObjects, List.foldl_map, storedObjects]
  congr 1
  funext acc id
  simp only [Json.get, Json.object, Json.field_setField, Json.asStr, storedId, storeObject,
    storedPath, savedVersion, List.foldl_cons, List.foldl_nil, String.reduceEq, if_true, if_false,
    Option.getD_some]
  congr

/-- **An entry is read back**, unless its end of life has come. -/
theorem loadClient_saveClient (plain : ':' ∉ s.endpoint.toList) (bounded : s.endOfLife < 2 ^ 64)
    (index : Nat) :
    loadClient now (saveClient sessionTo index s) =
      if s.endOfLife ≤ now then none else some (reloaded now s) := by
  have fields : Fields (saveClient sessionTo index s) s := fields_saveClient index
  simp only [loadClient, fields.ep, fields.regId, fields.lwm2m, fields.binding, fields.endOfLife,
    loadAddr_saveClient, loadObjects_saveClient, Json.asStr, asU64_ofNat bounded, storedId,
    Option.getD_some, Option.bind_eq_bind, Option.bind_some, sgtinFromEp_urn plain]
  rfl

private theorem filterMap_mapIdx {α β γ : Type} {list : List α} {save : Nat → α → β}
    {load : β → Option γ} {both : α → Option γ} (each : ∀ i, ∀ a ∈ list, load (save i a) = both a) :
    (list.mapIdx save).filterMap load = list.filterMap both := by
  induction list generalizing save with
  | nil => rfl
  | cons a rest ih =>
    rw [List.mapIdx_cons, List.filterMap_cons, List.filterMap_cons, each 0 a List.mem_cons_self,
      ih fun i b member => each (i + 1) b (List.mem_cons_of_mem a member)]

/-- The entries that are still alive come back, in their order. -/
theorem loadRegistry_saveRegistry {snapshots : List DeviceSnapshot}
    (plain : ∀ s ∈ snapshots, ':' ∉ s.endpoint.toList) (bounded : ∀ s ∈ snapshots, s.endOfLife < 2 ^ 64) :
    loadRegistry now (some (saveRegistry sessionTo snapshots)) =
      (snapshots.filter fun s => now < s.endOfLife).map (reloaded now) := by
  have clients : (saveRegistry sessionTo snapshots).get "clients" =
      .arr (snapshots.mapIdx (saveClient sessionTo)) := by
    simp [saveRegistry, Json.get, Json.object, Json.field_setField]
  simp only [loadRegistry, Option.bind_some, clients, Json.asArray]
  rw [filterMap_mapIdx fun index s member =>
    loadClient_saveClient (plain s member) (bounded s member) index]
  clear clients plain bounded
  induction snapshots with
  | nil => rfl
  | cons s rest ih =>
    by_cases ended : s.endOfLife ≤ now
    · simp [ended, ih]
    · simp [ended, Nat.lt_of_not_le ended, ih]

/-! ## Objects and versions -/

/-- An object id a device was registered with: one it has a version of, or one
its object list begins a path with. -/
def Named (objects : List String) (versions : Table UInt32 String) (id : UInt32) : Prop :=
  (versions.lookup id).isSome ∨ ∃ path ∈ objects, leadingId path = some id

private theorem lookup_nameObject (map : Table UInt32 String) (path : String) (id : UInt32) :
    (nameObject map path).lookup id =
      (map.lookup id).or (if leadingId path = some id then some "" else none) := by
  unfold nameObject
  cases leadingId path with
  | none => simp
  | some named =>
    by_cases same : named = id
    · subst same
      cases held : map.lookup named <;> simp [held]
    · have other : id ≠ named := fun equal => same equal.symm
      simp only [Option.some.injEq, same, if_false, Option.or_none]
      split
      · rfl
      · exact AList.lookup_insert_ne other

private theorem lookup_nameObjects (map : Table UInt32 String) (paths : List String) (id : UInt32) :
    (paths.foldl nameObject map).lookup id =
      (map.lookup id).or (if ∃ path ∈ paths, leadingId path = some id then some "" else none) := by
  induction paths generalizing map with
  | nil => simp
  | cons path rest ih =>
    rw [List.foldl_cons, ih, lookup_nameObject, Option.or_assoc]
    congr 1
    by_cases here : leadingId path = some id
    · simp [here]
    · simp [here]

theorem lookup_objectMap (s : DeviceSnapshot) (id : UInt32) :
    (objectMap s).lookup id = (s.objectVersions.lookup id).or
      (if ∃ path ∈ s.objects, leadingId path = some id then some "" else none) :=
  lookup_nameObjects s.objectVersions s.objects id

theorem mem_objectIds (s : DeviceSnapshot) (id : UInt32) :
    id ∈ objectIds s ↔ Named s.objects s.objectVersions id := by
  have held : id ∈ objectIds s ↔ ((objectMap s).lookup id).isSome := by
    rw [objectIds, List.mem_insertionSort, AList.lookup_isSome]
    exact Iff.rfl
  rw [held, lookup_objectMap, Named]
  cases s.objectVersions.lookup id with
  | some ver => simp
  | none =>
    simp only [Option.none_or, Option.isSome_none, Bool.false_eq_true, false_or]
    split <;> simp [*]

theorem objectIds_sorted (s : DeviceSnapshot) : (objectIds s).Pairwise (· < ·) := by
  have sorted : (objectIds s).Pairwise (· ≤ ·) := List.pairwise_insertionSort _ _
  have distinct : (objectIds s).Pairwise (· ≠ ·) :=
    (List.perm_insertionSort (· ≤ ·) _).nodup_iff.mpr (objectMap s).keys_nodup
  exact (sorted.and distinct).imp fun both => UInt32.lt_of_le_of_ne both.1 both.2

private theorem paths_stored (version : UInt32 → String) (ids : List UInt32)
    (acc : List String × Table UInt32 String) :
    (ids.foldl (storeObject version) acc).1 = acc.1 ++ ids.map storedPath := by
  induction ids generalizing acc with
  | nil => simp
  | cons id rest ih => simp [ih, storeObject]

private theorem versions_stored (version : UInt32 → String) (ids : List UInt32) (probe : UInt32)
    (acc : List String × Table UInt32 String) :
    (ids.foldl (storeObject version) acc).2.lookup probe =
      if probe ∈ ids ∧ version probe ≠ "" then some (version probe) else acc.2.lookup probe := by
  induction ids generalizing acc with
  | nil => simp
  | cons id rest ih =>
    rw [List.foldl_cons, ih]
    by_cases same : probe = id
    · subst same
      by_cases empty : version probe = "" <;> simp [storeObject, empty]
    · by_cases empty : version id = "" <;> simp [storeObject, empty, same]

theorem storedObjects_paths (s : DeviceSnapshot) :
    (storedObjects s).1 = (objectIds s).map storedPath :=
  paths_stored (savedVersion s) (objectIds s) ([], ∅)

/-- No version is lost or made up as long as none is empty. -/
theorem storedObjects_versions (given : ∀ id, s.objectVersions.lookup id ≠ some "") (id : UInt32) :
    (storedObjects s).2.lookup id = s.objectVersions.lookup id := by
  rw [storedObjects, versions_stored]
  cases held : s.objectVersions.lookup id with
  | some ver =>
    have filled : ver ≠ "" := fun empty => given id (empty ▸ held)
    have saved : savedVersion s id = ver := by simp [savedVersion, lookup_objectMap, held]
    have member : id ∈ objectIds s := (mem_objectIds s id).mpr (Or.inl (by simp [held]))
    rw [if_pos ⟨member, saved ▸ filled⟩, saved]
  | none =>
    have saved : savedVersion s id = "" := by
      simp only [savedVersion, lookup_objectMap, held, Option.none_or]
      split <;> rfl
    simp [saved]

/-- The id of a stored path is read back from it. -/
theorem leadingId_storedPath (id : UInt32) : leadingId (storedPath id) = some id := by
  have text : (storedPath id).toList = Nat.toDigits 10 id.toNat ++ '/' :: ['0'] := by
    simp [storedPath]
  have head : (splitText '/' (storedPath id)).headD "" = String.ofList (Nat.toDigits 10 id.toNat) := by
    rw [splitText, text, List.splitOn_append_cons_self_of_not_mem (slash_notMem_toDigits _)]
    rfl
  rw [leadingId, head, parseU32_toDigits]

/-! ## Keys -/

/-- Every device is stored under its own id, and its endpoint leads to it. -/
structure Keyed (r : DeviceRegistry) : Prop where
  ownId : ∀ id dev, r.byId.lookup id = some dev → dev.id = id
  ownEndpoint : ∀ id dev, r.byId.lookup id = some dev → r.byEndpoint.lookup dev.endpoint = some id

variable {r' : DeviceRegistry} {id : UInt32} {dev changed : Device}

/-- Devices change, none of them its id or endpoint. -/
private theorem keyed_same (keyed : Keyed r) (index : r'.byEndpoint = r.byEndpoint)
    (same : ∀ id changed, r'.byId.lookup id = some changed →
      ∃ dev, r.byId.lookup id = some dev ∧ changed.id = dev.id ∧ changed.endpoint = dev.endpoint) :
    Keyed r' := by
  constructor
  · intro id changed held
    obtain ⟨dev, stored, sameId, _⟩ := same id changed held
    exact sameId.trans (keyed.ownId id dev stored)
  · intro id changed held
    obtain ⟨dev, stored, _, sameEndpoint⟩ := same id changed held
    rw [index, sameEndpoint]
    exact keyed.ownEndpoint id dev stored

private theorem keyed_put (keyed : Keyed r) (held : r.byId.lookup id = some dev)
    (sameId : changed.id = dev.id) (sameEndpoint : changed.endpoint = dev.endpoint) :
    Keyed (r.putDevice id changed) := by
  refine keyed_same keyed rfl fun probe found stored => ?_
  rw [putDevice, Table.lookup_insert_if] at stored
  split at stored
  · rename_i here
    cases stored
    exact ⟨dev, here ▸ held, sameId, sameEndpoint⟩
  · exact ⟨found, stored, rfl, rfl⟩

private theorem keyed_remove (keyed : Keyed r) (held : r.byId.lookup id = some dev)
    (addr : SocketAddr) : Keyed (r.removeDevice id dev addr) := by
  have old {probe : UInt32} {found : Device}
      (stored : (r.removeDevice id dev addr).byId.lookup probe = some found) :
      probe ≠ id ∧ r.byId.lookup probe = some found := by
    rw [removeDevice, Table.lookup_erase_if] at stored
    split at stored
    · cases stored
    · rename_i other
      exact ⟨other, stored⟩
  constructor
  · intro probe found stored
    exact keyed.ownId probe found (old stored).2
  · intro probe found stored
    obtain ⟨other, kept⟩ := old stored
    have mine := keyed.ownEndpoint probe found kept
    have distinct : found.endpoint ≠ dev.endpoint := by
      intro same
      rw [same, keyed.ownEndpoint id dev held] at mine
      exact other (Option.some.inj mine).symm
    rw [removeDevice, Table.lookup_erase_if, if_neg distinct]
    exact mine

private theorem keyed_register {now : Instant} {endpoint : String} {addr : SocketAddr}
    {reg : Registration} {result : UInt32 × DeviceRegistry} (keyed : Keyed r)
    (ran : r.register now endpoint addr reg = some result) : Keyed result.2 := by
  cases known : r.byEndpoint.lookup endpoint with
  | some id =>
    cases stored : r.byId.lookup id with
    | none => simp [register, known, stored] at ran
    | some dev =>
      let base : DeviceRegistry := if dev.addr ≠ addr then
          { r with byAddr := (r.byAddr.erase dev.addr).insert addr id }
        else r
      have same : base.byId = r.byId ∧ base.byEndpoint = r.byEndpoint := by
        dsimp only [base]
        split <;> exact ⟨rfl, rfl⟩
      have keyed : Keyed base :=
        ⟨same.1 ▸ keyed.ownId, by rw [same.1, same.2]; exact keyed.ownEndpoint⟩
      have held : base.byId.lookup id = some dev := same.1 ▸ stored
      simp only [register, known, stored, Option.bind_eq_bind, Option.bind_some] at ran
      change (base.byId.lookup id).bind _ = some result at ran
      rw [held] at ran
      cases ran
      exact keyed_put keyed held rfl rfl
  | none =>
    simp only [register, known] at ran
    cases ran
    constructor
    · intro id dev held
      simp only [Table.lookup_insert_if] at held
      split at held
      · rename_i new
        cases held
        exact new.symm
      · exact keyed.ownId id dev held
    · intro id dev held
      simp only [Table.lookup_insert_if] at held ⊢
      split at held
      · rename_i new
        cases held
        exact (if_pos rfl).trans (congrArg some new.symm)
      · have mine := keyed.ownEndpoint id dev held
        have other : dev.endpoint ≠ endpoint := by
          intro same
          rw [same, known] at mine
          cases mine
        rw [if_neg other]
        exact mine

private theorem keyed_expireStale (keyed : Keyed r) (now : Instant) (graceSecs : UInt32) :
    Keyed (r.expireStale now graceSecs).2.2 := by
  unfold expireStale
  generalize (r.byId.values.filter (·.isExpired now graceSecs)).map (·.id) = expired
  suffices loop : ∀ acc : List String × List Reply × DeviceRegistry, Keyed acc.2.2 →
      Keyed (expired.foldl expireOne acc).2.2 from loop ([], [], r) keyed
  induction expired with
  | nil => exact fun acc keyed => keyed
  | cons id rest ih =>
    intro acc keyed
    refine ih _ ?_
    obtain ⟨removed, replies, r⟩ := acc
    simp only [expireOne]
    split
    · exact keyed
    · rename_i dev held
      exact keyed_remove keyed held dev.addr

/-- Every call keeps devices under their keys, even past a wrap of the id
counter. -/
theorem keyed_apply {op : Op} (keyed : Keyed r) (ran : r.apply op = some r') : Keyed r' := by
  cases op with
  | register now endpoint addr reg =>
    obtain ⟨result, registered, rfl⟩ := Option.map_eq_some_iff.mp ran
    exact keyed_register keyed registered
  | expireStale now graceSecs =>
    cases ran
    exact keyed_expireStale keyed now graceSecs
  | removeByAddr addr =>
    cases ran
    unfold removeByAddr
    split
    · exact keyed
    · split
      · exact keyed
      · rename_i dev held
        exact keyed_remove keyed held addr
  | _ =>
    have index : r'.byEndpoint = r.byEndpoint := by
      cases apply_rewritten rfl ran <;> rfl
    refine keyed_same keyed index fun id changed held => ?_
    rcases apply_device ran held with ⟨dev, stored, same⟩ | ⟨_, _, _, _, other, _⟩
    · rw [same]
      exact ⟨dev, stored, deviceAfter_identity id dev _⟩
    · cases other

theorem keyed_of_indexes (sound : IndexesSound r) : Keyed r :=
  ⟨sound.ownId, fun id dev held => (sound.byEndpoint dev.endpoint id).mpr ⟨dev, held, rfl⟩⟩

end Lwm2mServer.RestartedRegistry
