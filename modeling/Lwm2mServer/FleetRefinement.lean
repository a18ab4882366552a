import Lwm2mServer.Library.Refinement
import Lwm2mServer.ConnectionStatus
import Lwm2mServer.Fleet
import Lwm2mServer.RestoredRegistry

/-! The device registry refines the fleet. `Represents` says which fleet a
registry with sound indexes stands for; every call keeps it, by the three kinds
there are: calls that keep everybody, registrations and removals. -/
namespace Lwm2mServer.Fleet
open Library DeviceRegistry DeviceRecords RegistryIndexes

/-- The registry's indexes are sound, and through them it has the fleet's
devices. -/
structure Represents (r : DeviceRegistry) (f : Fleet) : Prop where
  sound : IndexesSound r
  member : ∀ endpoint, f.member endpoint = (r.byEndpoint.lookup endpoint).bind r.byId.lookup
  sender : ∀ addr, f.sender addr = ((r.byAddr.lookup addr).bind r.byId.lookup).map (·.endpoint)

/-- Every registry with sound indexes is one. -/
def of (r : DeviceRegistry) (sound : IndexesSound r) : Fleet where
  member endpoint := (r.byEndpoint.lookup endpoint).bind r.byId.lookup
  sender addr := ((r.byAddr.lookup addr).bind r.byId.lookup).map (·.endpoint)
  named := by
    intro endpoint dev member
    obtain ⟨id, known, held⟩ := Option.bind_eq_some_iff.mp member
    obtain ⟨dev', held', own⟩ := (sound.byEndpoint endpoint id).mp known
    cases held.symm.trans held'
    exact own
  placed := by
    intro addr endpoint sender
    obtain ⟨dev, found, rfl⟩ := Option.map_eq_some_iff.mp sender
    obtain ⟨id, index, held⟩ := Option.bind_eq_some_iff.mp found
    obtain ⟨dev', held', here⟩ := sound.byAddr addr id index
    cases held.symm.trans held'
    refine ⟨dev, ?_, here⟩
    rw [(sound.byEndpoint dev.endpoint id).mpr ⟨dev, held, rfl⟩, Option.bind_some, held]
  apart := by
    intro endpoint other dev dev' member member' ids
    obtain ⟨id, known, held⟩ := Option.bind_eq_some_iff.mp member
    obtain ⟨id', known', held'⟩ := Option.bind_eq_some_iff.mp member'
    rw [sound.ownId id dev held, sound.ownId id' dev' held'] at ids
    subst ids
    cases held.symm.trans held'
    obtain ⟨dev₁, held₁, own⟩ := (sound.byEndpoint endpoint id).mp known
    obtain ⟨dev₂, held₂, own'⟩ := (sound.byEndpoint other id).mp known'
    cases held.symm.trans held₁
    cases held.symm.trans held₂
    exact own.symm.trans own'

theorem represents_of (sound : IndexesSound r) : Represents r (of r sound) :=
  ⟨sound, fun _ => rfl, fun _ => rfl⟩

namespace Represents
variable {r r' : DeviceRegistry} {f : Fleet} {id : UInt32} {dev : Device} {endpoint : String}
  {addr : SocketAddr} (rep : Represents r f)
include rep

theorem member_of_held (held : r.byId.lookup id = some dev) : f.member dev.endpoint = some dev := by
  rw [rep.member, (rep.sound.byEndpoint dev.endpoint id).mpr ⟨dev, held, rfl⟩, Option.bind_some, held]

theorem held_of_has (has : f.Has dev) : r.byId.lookup dev.id = some dev := by
  rw [Has, rep.member] at has
  obtain ⟨id, -, held⟩ := Option.bind_eq_some_iff.mp has
  rwa [rep.sound.ownId id dev held]

theorem has_iff : f.Has dev ↔ r.byId.lookup dev.id = some dev :=
  ⟨rep.held_of_has, rep.member_of_held⟩

theorem find_eq : f.find addr = (r.byAddr.lookup addr).bind r.byId.lookup := by
  rw [find, rep.sender]
  cases index : r.byAddr.lookup addr with
  | none => rfl
  | some id =>
    obtain ⟨dev, held, -⟩ := rep.sound.byAddr addr id index
    rw [Option.bind_some, held]
    exact rep.member_of_held held

theorem sender_iff (held : r.byId.lookup id = some dev) :
    f.sender addr = some dev.endpoint ↔ r.byAddr.lookup addr = some id := by
  rw [rep.sender]
  constructor
  · intro sender
    obtain ⟨dev', found, same⟩ := Option.map_eq_some_iff.mp sender
    obtain ⟨id', index, held'⟩ := Option.bind_eq_some_iff.mp found
    have mine := (rep.sound.byEndpoint dev.endpoint id).mpr ⟨dev, held, rfl⟩
    rw [(rep.sound.byEndpoint dev.endpoint id').mpr ⟨dev', held', same⟩] at mine
    rw [index, mine]
  · intro index
    rw [index, Option.bind_some, held, Option.map_some]

theorem endpoint_iff (held : r.byId.lookup id = some dev) :
    dev.endpoint = endpoint ↔ r.byEndpoint.lookup endpoint = some id := by
  rw [rep.sound.byEndpoint]
  constructor
  · intro own
    exact ⟨dev, held, own⟩
  · rintro ⟨dev', held', own⟩
    cases held.symm.trans held'
    exact own

/-- The devices that are stored are the fleet's. -/
theorem lists_values (p : Device → Bool) : f.Lists p (r.byId.values.filter p) := by
  constructor
  · refine List.Nodup.filter p (List.Nodup.of_map (·.id) ?_)
    have ids : r.byId.values.map (·.id) = r.byId.keys := by
      rw [Table.values, AList.keys, List.keys, List.map_map]
      refine List.map_congr_left fun entry member => ?_
      exact rep.sound.ownId entry.1 entry.2 (AList.mem_lookup_iff.mpr member)
    rw [ids]
    exact r.byId.keys_nodup
  · intro dev
    rw [List.mem_filter, Table.mem_values, rep.has_iff]
    refine and_congr_left fun _ => ⟨?_, fun held => ⟨_, held⟩⟩
    rintro ⟨id, held⟩
    rwa [rep.sound.ownId id dev held]

/-! ## Calls that keep everybody -/

section Stay
variable {op : Op}

omit rep in
private theorem after_of {p : Prop} [Decidable p] {changed : Device} (concerns : f.Concerns dev op ↔ p)
    (here : change dev op = changed) : f.after op dev = if p then changed else dev := by
  by_cases holds : p
  · rw [if_pos holds, after, if_pos (concerns.mpr holds), here]
  · rw [if_neg holds, after, if_neg fun concerned => holds (concerns.mp concerned)]

/-- What the fleet makes of a device the registry makes of it too. -/
theorem after_eq (stays : rewrites op = true) (held : r.byId.lookup id = some dev) :
    f.after op dev = deviceAfter r id dev op := by
  cases op with
  | register | expireStale | removeByAddr => cases stays
  | renewRegistration | drainPending | placeInFlight | completeInFlight | mergeDeviceStateByAddr =>
    exact after_of (rep.sender_iff held) rfl
  | restoreDeviceState => exact after_of (rep.endpoint_iff held) rfl
  | touch now addr =>
    have chosen : f.after (.touch now addr) dev =
        if r.byAddr.lookup addr = some id then change dev (.touch now addr) else dev :=
      after_of (rep.sender_iff held) rfl
    rw [chosen]
    simp only [deviceAfter]
    split
    · rename_i index
      obtain ⟨dev', held', here⟩ := rep.sound.byAddr addr id index
      cases held.symm.trans held'
      subst here
      rfl
    · rfl
  | setDeviceOffline now addr =>
    have chosen : f.after (.setDeviceOffline now addr) dev =
        if r.byAddr.lookup addr = some id then change dev (.setDeviceOffline now addr) else dev :=
      after_of (rep.sender_iff held) rfl
    rw [chosen]
    by_cases index : r.byAddr.lookup addr = some id
    · by_cases online : dev.online = some true
      · simp [deviceAfter, index, online, change]
      · simp [deviceAfter, index, online, change]
    · simp [deviceAfter, index]
  | takePingCandidates | timeoutInFlight => exact if_pos trivial
  | _ => exact if_neg not_false

omit rep in
private theorem lookups_rewritten (rewritten : Rewritten r op r') :
    r'.byEndpoint = r.byEndpoint ∧ r'.byAddr = r.byAddr ∧
      ∀ id, r'.byId.lookup id = (r.byId.lookup id).map (deviceAfter r id · op) := by
  cases rewritten with
  | kept same =>
    refine ⟨rfl, rfl, fun id => ?_⟩
    cases held : r.byId.lookup id with
    | none => rfl
    | some dev => rw [Option.map_some, same id dev held]
  | @put target dev held others =>
    refine ⟨rfl, rfl, fun id => ?_⟩
    rw [putDevice, Table.lookup_insert_if]
    by_cases mine : id = target
    · rw [if_pos mine, mine, held, Option.map_some]
    · rw [if_neg mine]
      cases r.byId.lookup id with
      | none => rfl
      | some kept => rw [Option.map_some, others id kept mine]
  | map change each =>
    refine ⟨rfl, rfl, fun id => ?_⟩
    rw [Table.lookup_mapVals]
    exact congrArg (fun change => (r.byId.lookup id).map change) (funext fun dev => (each id dev).symm)

theorem stay (sound : IndexesSound r') (stays : rewrites op = true) (rewritten : Rewritten r op r') :
    Represents r' (f.rewrite (f.after op) fun dev _ => f.after_same op dev) := by
  obtain ⟨endpoints, addrs, devices⟩ := lookups_rewritten rewritten
  refine ⟨sound, fun endpoint => ?_, fun addr => ?_⟩
  · rw [endpoints]
    change (f.member endpoint).map (f.after op) = _
    rw [rep.member]
    cases r.byEndpoint.lookup endpoint with
    | none => rfl
    | some id =>
      rw [Option.bind_some, Option.bind_some, devices]
      cases held : r.byId.lookup id with
      | none => rfl
      | some dev => rw [Option.map_some, Option.map_some, rep.after_eq stays held]
  · rw [addrs]
    change f.sender addr = _
    rw [rep.sender]
    cases r.byAddr.lookup addr with
    | none => rfl
    | some id =>
      rw [Option.bind_some, Option.bind_some, devices]
      cases held : r.byId.lookup id with
      | none => rfl
      | some dev =>
        rw [Option.map_some, Option.map_some, Option.map_some, (deviceAfter_identity id dev op).2]

end Stay

section Answers
variable {answer : Returned}

/-- A call that looks a device up by an address. -/
private theorem by_addr (addr : SocketAddr) :
    r.byAddr.lookup addr = none ∧ f.find addr = none ∧ f.sender addr = none ∨
      ∃ id dev, r.byAddr.lookup addr = some id ∧ r.byId.lookup id = some dev ∧
        f.find addr = some dev ∧ f.sender addr = some dev.endpoint := by
  rcases byAddr_resolves rep.sound.resolve addr with missing | ⟨id, dev, index, held⟩
  · exact Or.inl ⟨missing, by rw [rep.find_eq, missing]; rfl, by rw [rep.sender, missing]; rfl⟩
  · refine Or.inr ⟨id, dev, index, held, ?_, (rep.sender_iff held).mpr index⟩
    rw [rep.find_eq, index, Option.bind_some, held]

private theorem by_endpoint (endpoint : String) :
    r.byEndpoint.lookup endpoint = none ∧ f.member endpoint = none ∨
      ∃ id dev, r.byEndpoint.lookup endpoint = some id ∧ r.byId.lookup id = some dev ∧
        f.member endpoint = some dev ∧ dev.id = id := by
  rcases byEndpoint_resolves rep.sound.resolve endpoint with missing | ⟨id, dev, index, held⟩
  · exact Or.inl ⟨missing, by rw [rep.member, missing]; rfl⟩
  · refine Or.inr ⟨id, dev, index, held, ?_, rep.sound.ownId id dev held⟩
    rw [rep.member, index, Option.bind_some, held]

theorem answers {op : Op} (stays : rewrites op = true) (ran : r.perform op = some (answer, r')) :
    f.Answers op answer := by
  cases op with
  | register | expireStale | removeByAddr => cases stays
  | renewRegistration | placeInFlight | restoreDeviceState =>
    cases ran
    rfl
  | takePingCandidates =>
    cases ran
    exact ⟨_, rep.lists_values _, rfl⟩
  | timeoutInFlight now maxSecs =>
    cases ran
    refine ⟨_, rep.lists_values _, ?_⟩
    rw [List.filter_true]
    rfl
  | touch now addr | setDeviceOffline now addr =>
    rcases rep.by_addr addr with ⟨missing, nobody, -⟩ | ⟨id, dev, index, held, found, -⟩
    · simp only [perform, touch, setDeviceOffline, missing] at ran
      cases ran
      rw [Answers, nobody]
      rfl
    · simp only [perform, touch, setDeviceOffline, index, held, Option.bind_eq_bind, Option.bind_some] at ran
      rw [Answers, found, Option.filter_some]
      by_cases online : dev.online = some true
      · simp [online] at ran
        simp [online, ran]
      · simp [online] at ran
        simp [online, ran]
  | endpointByAddr addr =>
    rcases rep.by_addr addr with ⟨missing, -, nowhere⟩ | ⟨id, dev, index, held, -, named⟩
    · simp only [perform, endpointByAddr, missing] at ran
      cases ran
      rw [Answers, nowhere]
    · simp only [perform, endpointByAddr, index, held] at ran
      cases ran
      rw [Answers, named]
  | drainPending addr | isInFlight addr | completeInFlight addr | objectVersionsByAddr addr
  | mergeDeviceStateByAddr addr =>
    rcases rep.by_addr addr with ⟨missing, nobody, -⟩ | ⟨id, dev, index, held, found, -⟩
    · simp only [perform, drainPending, isInFlight, completeInFlight, objectVersionsByAddr,
        mergeDeviceStateByAddr, missing] at ran
      cases ran
      rw [Answers, nobody]
      rfl
    · simp only [perform, drainPending, isInFlight, completeInFlight, objectVersionsByAddr,
        mergeDeviceStateByAddr, index, held] at ran
      cases ran
      rw [Answers, found]
      rfl
  | addrAndIdByEndpoint endpoint | deviceStateByEndpoint endpoint =>
    rcases rep.by_endpoint endpoint with ⟨missing, nobody⟩ | ⟨id, dev, index, held, found, rfl⟩
    · simp only [perform, addrAndIdByEndpoint, deviceStateByEndpoint, missing] at ran
      cases ran
      rw [Answers, nobody]
      rfl
    · simp only [perform, addrAndIdByEndpoint, deviceStateByEndpoint, index, held] at ran
      cases ran
      rw [Answers, found]
      rfl

end Answers

/-! ## Registrations -/

section Registration
variable {now : Instant} {reg : Registration}

/-- A known device, as the registry has it afterwards. -/
private theorem renewed {next : DeviceRegistry} (known : r.byEndpoint.lookup endpoint = some id)
    (held : r.byId.lookup id = some dev) (member : f.member endpoint = some dev)
    (sound : IndexesSound next) (devices : next.byId = r.byId.insert id (dev.refresh addr reg now))
    (endpoints : next.byEndpoint = r.byEndpoint)
    (addrs : ∀ from_, next.byAddr.lookup from_ =
      if dev.addr = addr then r.byAddr.lookup from_
      else if from_ = addr then some id
      else if from_ = dev.addr then none
      else r.byAddr.lookup from_) :
    Represents next (f.moved member addr reg now) := by
  have own : dev.endpoint = endpoint := f.named _ _ member
  -- whoever was found through an index is found there still
  have kept (index : Option UInt32) : ((index.bind next.byId.lookup).map (·.endpoint)) =
      ((index.bind r.byId.lookup).map (·.endpoint)) := by
    cases index with
    | none => rfl
    | some other =>
      rw [Option.bind_some, Option.bind_some, devices, Table.lookup_insert_if]
      split
      · rename_i mine
        rw [mine, held]
        rfl
      · rfl
  refine ⟨sound, fun name => ?_, fun from_ => ?_⟩
  · change (if name = endpoint then some (dev.refresh addr reg now) else f.member name) = _
    rw [endpoints]
    by_cases mine : name = endpoint
    · rw [if_pos mine, mine, known, Option.bind_some, devices, Table.lookup_insert_if, if_pos rfl]
    · rw [if_neg mine, rep.member]
      cases index : r.byEndpoint.lookup name with
      | none => rfl
      | some other =>
        have apart : other ≠ id := by
          rintro rfl
          obtain ⟨dev', held', own'⟩ := (rep.sound.byEndpoint name other).mp index
          cases held.symm.trans held'
          exact mine (own'.symm.trans own)
        rw [Option.bind_some, Option.bind_some, devices, Table.lookup_insert_if, if_neg apart]
  · change (if dev.addr = addr then f.sender from_ else if from_ = addr then some endpoint
      else if from_ = dev.addr then none else f.sender from_) = _
    rw [addrs, kept, rep.sender]
    split
    · rfl
    · split
      · rw [Option.bind_some, held, Option.map_some, own]
      · split <;> rfl

private theorem added (free : r.byId.lookup id = none) {next : DeviceRegistry} (sound : IndexesSound next)
    (stranger : f.member (Device.new id endpoint addr reg now).endpoint = none)
    (apart : ∀ other, f.Has other → other.id ≠ (Device.new id endpoint addr reg now).id)
    (devices : next.byId = r.byId.insert id (Device.new id endpoint addr reg now))
    (endpoints : next.byEndpoint = r.byEndpoint.insert endpoint id)
    (addrs : next.byAddr = r.byAddr.insert addr id) :
    Represents next (f.joined (Device.new id endpoint addr reg now) stranger apart) := by
  have other_of {index : UInt32} (held : r.byId.lookup index ≠ none) : index ≠ id := by
    rintro rfl
    exact held free
  refine ⟨sound, fun name => ?_, fun from_ => ?_⟩
  · change (if name = endpoint then some (Device.new id endpoint addr reg now) else f.member name) = _
    rw [endpoints, devices, Table.lookup_insert_if]
    by_cases mine : name = endpoint
    · rw [if_pos mine, if_pos mine, Option.bind_some, Table.lookup_insert_if, if_pos rfl]
    · rw [if_neg mine, if_neg mine, rep.member]
      cases index : r.byEndpoint.lookup name with
      | none => rfl
      | some other =>
        obtain ⟨dev, held, -⟩ := (rep.sound.byEndpoint name other).mp index
        rw [Option.bind_some, Option.bind_some, Table.lookup_insert_if,
          if_neg (other_of (held ▸ Option.some_ne_none dev))]
  · change (if from_ = addr then some endpoint else f.sender from_) = _
    rw [addrs, devices, Table.lookup_insert_if]
    by_cases here : from_ = addr
    · rw [if_pos here, if_pos here, Option.bind_some, Table.lookup_insert_if, if_pos rfl]
      rfl
    · rw [if_neg here, if_neg here, rep.sender]
      cases index : r.byAddr.lookup from_ with
      | none => rfl
      | some other =>
        obtain ⟨dev, held, -⟩ := rep.sound.byAddr from_ other index
        rw [Option.bind_some, Option.bind_some, Table.lookup_insert_if,
          if_neg (other_of (held ▸ Option.some_ne_none dev))]

theorem registered {result : UInt32 × DeviceRegistry}
    (registered : Registered r now endpoint addr reg result)
    (free : r.byEndpoint.lookup endpoint = none → r.byId.lookup r.nextId = none) :
    ∃ f', f.Step (.register now endpoint addr reg) (.id result.1) f' ∧ Represents result.2 f' := by
  have sound := indexes_registered rep.sound registered free
  cases registered with
  | @refreshed id dev known held own here =>
    have member : f.member endpoint = some dev := own ▸ rep.member_of_held held
    have same := rep.sound.ownId id dev held
    subst same
    exact ⟨_, .renew member, rep.renewed known held member sound rfl rfl fun _ => by rw [if_pos here]; rfl⟩
  | @moved id dev known held own elsewhere =>
    have member : f.member endpoint = some dev := own ▸ rep.member_of_held held
    have same := rep.sound.ownId id dev held
    subst same
    refine ⟨_, .renew member, rep.renewed known held member sound rfl rfl fun from_ => ?_⟩
    rw [if_neg elsewhere, Table.lookup_insert_if, Table.lookup_erase_if]
  | added unknown =>
    have stranger : f.member endpoint = none := by
      rw [rep.member, unknown]
      rfl
    have apart : ∀ other, f.Has other → other.id ≠ r.nextId := by
      intro other has same
      have held := rep.held_of_has has
      rw [same, free unknown] at held
      cases held
    exact ⟨_, .join stranger apart,
      rep.added (free unknown) sound stranger apart rfl rfl rfl⟩

end Registration

/-! ## Removals -/

end Represents

/-- Devices are taken out one after another. -/
def takeOut (r : DeviceRegistry) (devs : List Device) : DeviceRegistry :=
  devs.foldl (fun r dev => r.removeDevice dev.id dev dev.addr) r

private theorem lookup_foldl_erase {K V : Type} [DecidableEq K] (key : Device → K)
    (devs : List Device) (table : Table K V) (k : K) :
    (devs.foldl (fun table dev => AList.erase (key dev) table) table).lookup k =
      if k ∈ devs.map key then none else table.lookup k := by
  induction devs generalizing table with
  | nil => rw [List.map_nil, if_neg List.not_mem_nil]; rfl
  | cons dev devs ih =>
    rw [List.foldl_cons, ih, Table.lookup_erase_if, List.map_cons]
    by_cases first : k = key dev
    · rw [if_pos first, ite_self, if_pos (first ▸ List.mem_cons_self)]
    · by_cases later : k ∈ devs.map key
      · rw [if_pos later, if_pos (List.mem_cons_of_mem _ later)]
      · rw [if_neg later, if_neg first, if_neg]
        exact fun member => (List.mem_cons.mp member).elim first later

private theorem takeOut_eq (r : DeviceRegistry) (devs : List Device) :
    takeOut r devs = { r with
      byId := devs.foldl (fun table dev => AList.erase dev.id table) r.byId
      byEndpoint := devs.foldl (fun table dev => AList.erase dev.endpoint table) r.byEndpoint
      byAddr := devs.foldl (fun table dev => AList.erase dev.addr table) r.byAddr } := by
  induction devs generalizing r with
  | nil => rfl
  | cons dev devs ih =>
    rw [takeOut, List.foldl_cons, ← takeOut, ih]
    rfl

/-- The loop of `expire_stale`, over the ids of devices that are there. -/
private theorem foldl_expireOne {r : DeviceRegistry} {devs : List Device}
    (ids : (devs.map (·.id)).Nodup) (held : ∀ dev ∈ devs, r.byId.lookup dev.id = some dev)
    (removed : List String) (replies : List Reply) :
    (devs.map (·.id)).foldl expireOne (removed, replies, r) =
      (removed ++ devs.map (·.endpoint), replies ++ devs.flatMap timeoutReplies, takeOut r devs) := by
  induction devs generalizing r removed replies with
  | nil => simp [takeOut]
  | cons dev devs ih =>
    obtain ⟨other, ids⟩ := List.nodup_cons.mp ids
    have later : ∀ dev' ∈ devs,
        (r.removeDevice dev.id dev dev.addr).byId.lookup dev'.id = some dev' := by
      intro dev' member
      have apart : dev'.id ≠ dev.id := fun same => other (List.mem_map.mpr ⟨dev', member, same⟩)
      rw [removeDevice, Table.lookup_erase_if, if_neg apart, held dev' (List.mem_cons_of_mem _ member)]
    rw [List.map_cons, List.foldl_cons, expireOne, held dev List.mem_cons_self]
    dsimp only
    rw [ih ids later]
    simp [takeOut]

namespace Represents
variable {r r' : DeviceRegistry} {f : Fleet} {gone : Device → Bool} {devs : List Device}
  (rep : Represents r f)
include rep

theorem without (lists : f.Lists gone devs) (sound : IndexesSound (takeOut r devs)) :
    Represents (takeOut r devs) (f.without gone) := by
  have among {dev : Device} (has : f.Has dev) : dev ∈ devs ↔ gone dev = true := by
    rw [lists.2, and_iff_right has]
  have leaves {dev : Device} (member : dev ∈ devs) : f.Has dev ∧ gone dev = true :=
    (lists.2 dev).mp member
  -- a device that is there leaves if its id, or its endpoint, is among those that leave
  have by_id {dev : Device} (has : f.Has dev) : dev.id ∈ devs.map (·.id) ↔ gone dev = true := by
    rw [← among has, List.mem_map]
    refine ⟨?_, fun member => ⟨dev, member, rfl⟩⟩
    rintro ⟨dev', member, same⟩
    have held := rep.held_of_has (leaves member).1
    rw [same, rep.held_of_has has] at held
    cases held
    exact member
  have by_name {dev : Device} (has : f.Has dev) :
      dev.endpoint ∈ devs.map (·.endpoint) ↔ gone dev = true := by
    rw [← among has, List.mem_map]
    refine ⟨?_, fun member => ⟨dev, member, rfl⟩⟩
    rintro ⟨dev', member, same⟩
    have has' := (leaves member).1
    rw [Has, same, has] at has'
    cases has'
    exact member
  rw [takeOut_eq] at sound ⊢
  refine ⟨sound, fun endpoint => ?_, fun addr => ?_⟩
  · change (f.member endpoint).filter (fun dev => !gone dev) = _
    rw [lookup_foldl_erase]
    rcases rep.by_endpoint endpoint with ⟨missing, nobody⟩ | ⟨id, dev, index, held, found, rfl⟩
    · rw [nobody, missing, ite_self]
      rfl
    · have named := f.named _ _ found
      have has := has_of_member found
      subst named
      rw [found]
      by_cases leave : gone dev = true
      · rw [if_pos ((by_name has).mpr leave)]
        simp [leave]
      · rw [if_neg (mt (by_name has).mp leave), index, Option.bind_some, lookup_foldl_erase,
          if_neg (mt (by_id has).mp leave), held]
        simp [leave]
  · by_cases leave : ∃ dev, f.Has dev ∧ gone dev = true ∧ dev.addr = addr
    · rw [without_sender_none leave, lookup_foldl_erase]
      obtain ⟨dev, has, gone_, here⟩ := leave
      rw [if_pos (List.mem_map.mpr ⟨dev, (among has).mpr gone_, here⟩)]
      rfl
    · have stays : addr ∉ devs.map (·.addr) := by
        intro member
        obtain ⟨dev, member, here⟩ := List.mem_map.mp member
        exact leave ⟨dev, (leaves member).1, (leaves member).2, here⟩
      rw [without_sender leave, lookup_foldl_erase, if_neg stays]
      rcases rep.by_addr addr with ⟨missing, -, nowhere⟩ | ⟨id, dev, index, held, -, named⟩
      · rw [nowhere, missing]
        rfl
      · have has := rep.member_of_held held
        have remains : gone dev ≠ true := fun gone_ =>
          leave ⟨dev, has, gone_, addr_of_sender named has⟩
        have same := rep.sound.ownId id dev held
        subst same
        rw [named, index, Option.bind_some, lookup_foldl_erase, if_neg (mt (by_id has).mp remains), held]
        rfl

theorem expired (now : Instant) (graceSecs : UInt32) :
    ∃ f', f.Step (.expireStale now graceSecs)
        (.expired (r.expireStale now graceSecs).1 (r.expireStale now graceSecs).2.1) f' ∧
      Represents (r.expireStale now graceSecs).2.2 f' := by
  have lists := rep.lists_values (·.isExpired now graceSecs)
  have sound := indexes_quiet rep.sound (quiet_expireStale now graceSecs)
  have ids : ((r.byId.values.filter (·.isExpired now graceSecs)).map (·.id)).Nodup := by
    refine List.Nodup.map_on (fun dev member dev' member' same => ?_) lists.1
    have has := ((lists.2 dev).mp member).1
    have has' := ((lists.2 dev').mp member').1
    have named := f.apart _ _ _ _ has has' same
    rw [Has, ← named, has] at has'
    exact Option.some.inj has'
  have loop := foldl_expireOne (r := r) ids
    (fun dev member => rep.held_of_has ((lists.2 dev).mp member).1) [] []
  have result : r.expireStale now graceSecs = _ := loop
  rw [result] at sound ⊢
  exact ⟨_, .expire lists, rep.without lists sound⟩

theorem left (addr : SocketAddr) :
    ∃ f', f.Step (.removeByAddr addr)
        (.removed (r.removeByAddr addr).1 (r.removeByAddr addr).2.1) f' ∧
      Represents (r.removeByAddr addr).2.2 f' := by
  have sound := indexes_quiet rep.sound (quiet_removeByAddr rep.sound.resolve addr)
  have step : f.Step (.removeByAddr addr) _ _ := .remove
  rcases rep.by_addr addr with ⟨missing, nobody, nowhere⟩ | ⟨id, dev, index, held, found, named⟩
  · have result : r.removeByAddr addr = (none, [], r) := by
      rw [removeByAddr, missing]
    rw [nobody] at step
    rw [result] at sound ⊢
    have lists : f.Lists (fun dev => f.sender addr = some dev.endpoint) [] := by
      refine ⟨List.nodup_nil, fun dev => ?_⟩
      simp [nowhere]
    exact ⟨_, step, rep.without lists sound⟩
  · have has := rep.member_of_held held
    have here := addr_of_sender named has
    have result : r.removeByAddr addr =
        (some dev.endpoint, timeoutReplies dev, takeOut r [dev]) := by
      rw [removeByAddr, index]
      dsimp only
      rw [held, takeOut, List.foldl_cons, List.foldl_nil, here, rep.sound.ownId id dev held]
    rw [found] at step
    rw [result] at sound ⊢
    have lists : f.Lists (fun dev => f.sender addr = some dev.endpoint) [dev] := by
      refine ⟨List.nodup_singleton dev, fun dev' => ?_⟩
      rw [List.mem_singleton, decide_eq_true_iff, named]
      constructor
      · rintro rfl
        exact ⟨has, rfl⟩
      · rintro ⟨has', same⟩
        rw [Has, ← Option.some.inj same, has] at has'
        exact (Option.some.inj has').symm
    exact ⟨_, step, rep.without lists sound⟩

/-- **One call on the registry is one on the fleet**, with the same answer. -/
theorem stepped {op : Op} {answer : Returned} (free : RestoredRegistry.IdFree r op)
    (ran : r.perform op = some (answer, r')) : ∃ f', f.Step op answer f' ∧ Represents r' f' := by
  have applied : r.apply op = some r' := by
    rw [← perform_apply, ran]
    rfl
  cases stays : rewrites op with
  | true =>
    have sound : IndexesSound r' := by
      rcases apply_cases rep.sound.resolve applied with
        ⟨quiet, -⟩ | ⟨now, endpoint, addr, reg, id, rfl, -⟩
      · exact indexes_quiet rep.sound quiet
      · cases stays
    exact ⟨_, .stay stays (rep.answers stays ran), rep.stay sound stays (apply_rewritten stays applied)⟩
  | false =>
    cases op with
    | register now endpoint addr reg =>
      obtain ⟨result, made, registered⟩ := registered_register rep.sound.resolve now endpoint addr reg
      rw [perform, made] at ran
      cases ran
      exact rep.registered registered (free endpoint rfl)
    | expireStale now graceSecs =>
      cases ran
      exact rep.expired now graceSecs
    | removeByAddr addr =>
      cases ran
      exact rep.left addr
    | _ => cases stays

end Represents

/-! ## Whole runs -/

/-- The registry from start-up on. A new endpoint is given an id that is not in use. -/
def registry : Service DeviceRegistry Op Returned where
  start r := ∃ now snapshots, (snapshots.map (·.id)).Nodup ∧ (snapshots.map (·.endpoint)).Nodup ∧
    r = DeviceRegistry.new.restore now snapshots
  step r op answer r' := RestoredRegistry.IdFree r op ∧ r.perform op = some (answer, r')

/-- Not heard of and not spoken to. -/
def Asleep (dev : Device) : Prop :=
  dev.online = some false ∧ dev.state = .obj [] ∧ dev.pendingOps = [] ∧ dev.inFlight = ∅

/-- A fleet that begins asleep. -/
def fleet : Service Fleet Op Returned where
  start f := ∀ dev, f.Has dev → Asleep dev
  step := Step

private theorem asleep_restore {now : Instant} {snapshots : List DeviceSnapshot} {r : DeviceRegistry}
    (before : ∀ id dev, r.byId.lookup id = some dev → Asleep dev) {id : UInt32} {dev : Device}
    (held : (r.restore now snapshots).byId.lookup id = some dev) : Asleep dev := by
  induction snapshots generalizing r with
  | nil => exact before id dev held
  | cons s rest ih =>
    refine ih (r := r.restoreOne now s) (fun id dev held => ?_) held
    rw [restoreOne, Table.lookup_insert_if] at held
    split at held
    · cases held
      exact ⟨rfl, rfl, rfl, rfl⟩
    · exact before id dev held

theorem registry_refines : registry.Refines fleet Represents where
  starts := by
    rintro r ⟨now, snapshots, ids, endpoints, rfl⟩
    have sound : IndexesSound (DeviceRegistry.new.restore now snapshots) :=
      indexes_restore now snapshots indexes_new ids endpoints fun s _ => by simp [new]
    refine ⟨of _ sound, fun dev has => ?_, represents_of sound⟩
    refine asleep_restore (fun id dev held => ?_) ((represents_of sound).held_of_has has)
    simp [new] at held
  steps := by
    rintro r f op answer r' rep ⟨free, ran⟩
    exact rep.stepped free ran

/-- **What the registry's callers see is a fleet**: every list of calls with their
answers is one of a fleet too, and no call panics. -/
theorem transcripts_refined {calls : List (Op × Returned)} {r : DeviceRegistry}
    (told : registry.Transcript calls r) :
    (∃ f, fleet.Transcript calls f ∧ Represents r f) ∧
      ∀ op, ∃ answer r', r.perform op = some (answer, r') := by
  obtain ⟨f, told', rep⟩ := registry_refines.transcript told
  refine ⟨⟨f, told', rep⟩, fun op => ?_⟩
  cases ran : r.perform op with
  | some result => exact ⟨result.1, result.2, rfl⟩
  | none =>
    refine absurd ?_ (apply_no_panic rep.sound.resolve op)
    rw [← perform_apply, ran]
    rfl

/-! ## The gateway -/

section
open GatewaySteps DeviceSteps

/-- The calls that the tasks of the gateway make, in whatever order they take
turns. -/
theorem gateway_calls {env : Env} {g : Gateway}
    (reached : (Gateway.machine env).Reaches GatewaySteps.IdFree g) :
    ∃ calls, registry.Transcript calls g.server.devices := by
  refine reached.invariant (fun g => ∃ calls, registry.Transcript calls g.server.devices)
    (fun g initial => ?_) ?_
  · obtain ⟨seed, serverUri, included, now, snapshots, clock, trafficClass, -, ids, endpoints, rfl⟩ :=
      initial
    exact ⟨[], .start ⟨now, snapshots, ids, endpoints, rfl⟩⟩
  · rintro g act g' - ⟨calls, told⟩ free ran
    rcases server_part ran with same | ⟨action, stepped, made⟩
    · exact ⟨calls, same ▸ told⟩
    · have called := registry_step stepped
      cases op : registryCall g.server action with
      | none =>
        rw [op] at called
        exact ⟨calls, Option.some.inj called ▸ told⟩
      | some op_ =>
        rw [op] at called
        change g.server.devices.apply op_ = _ at called
        rw [← perform_apply] at called
        obtain ⟨result, answered, same⟩ := Option.map_eq_some_iff.mp called
        refine ⟨(op_, result.1) :: calls, same ▸ .call told ⟨?_, answered⟩⟩
        intro endpoint named unknown
        cases op_ with
        | register now name addr reg =>
          cases named
          have at_ := ConnectionStatus.registering_of_call op
          rcases made with rfl | ⟨call, rfl⟩
          · exact free _ at_ unknown
          · cases at_
        | _ => cases named

theorem transcripts_refined_mower : ∃ calls r, registry.Transcript calls r ∧
    r.byEndpoint.lookup "mower" = some 1 ∧ (∃ f, fleet.Transcript calls f ∧ Represents r f) ∧
      ∀ op, ∃ answer r', r.perform op = some (answer, r') := by
  obtain ⟨g, -, reached, known⟩ := (Gateway.machine Peer.env).exec_reaches GatewaySteps.IdFree _
    (Peer.relay (Peer.post "rd" "mower") Peer.addr 2)
    (fun g => decide (g.server.devices.byEndpoint.lookup "mower" = some 1)) Peer.start_gateway
    (by decide +kernel)
  obtain ⟨calls, told⟩ := gateway_calls reached
  exact ⟨calls, _, told, of_decide_eq_true known, transcripts_refined told⟩

end

end Lwm2mServer.Fleet
