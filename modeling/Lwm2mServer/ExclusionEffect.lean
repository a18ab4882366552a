import Lwm2mServer.DeviceSteps

/-! What `handle_exclusion` leaves behind. It looks up the device's address,
waits for the device for up to thirty seconds, and removes what is indexed at
that address by then. The invariant follows every exclusion in progress:
the remembered address still is where the device is, and nobody else is there
(`Held`); without one the device is not registered (`Absent`). -/
namespace Lwm2mServer.ExclusionEffect
open Library DeviceRegistry RegistryIndexes DeviceSteps

/-- The endpoint's device, if registered, is stored with the address and
indexed there, and no other device is stored with it. -/
def Held (r : DeviceRegistry) (endpoint : String) (addr : SocketAddr) : Prop :=
  ∀ id dev, r.byId.lookup id = some dev → (dev.endpoint = endpoint ↔ dev.addr = addr) ∧
    (dev.addr = addr → r.byAddr.lookup addr = some id)

/-- The endpoint is not registered. -/
def Absent (r : DeviceRegistry) (endpoint : String) : Prop :=
  ∀ id dev, r.byId.lookup id = some dev → dev.endpoint ≠ endpoint

/-- What an exclusion expects of the registry, by the address it remembers. -/
def Expected (r : DeviceRegistry) (endpoint : String) : Option SocketAddr → Prop
  | some addr => Held r endpoint addr
  | none => Absent r endpoint

/-- What an exclusion remembers between its lookup and its return: the address
it will remove, or that there is nothing left to remove. -/
def remembered : ExclusionPc → Option (Option SocketAddr)
  | .findAddr | .finished => none
  | .waitDevice addr => some (some addr)
  | .unmark addr | .deregister addr => some addr
  | .persist => some none

/-- An exclusion that has taken the device out of the included set. -/
def unmarked : ExclusionPc → Bool
  | .deregister _ | .persist => true
  | _ => false

/-! ## The condition -/

/-- A registration while an exclusion of `device` is in progress: the device
registers only from the address that will be removed, and nobody else does;
with no such address it does not register at all. -/
def RegistersApart (device : String) (registered : String × SocketAddr) :
    Option (Option SocketAddr) → Prop
  | none => True
  | some none => registered.1 ≠ device
  | some (some addr) => registered.1 = device ↔ registered.2 = addr

/-- When the address is looked up, the device is the one indexed at it, and
the only one stored with it. -/
def FindsAlone (s : Server) (task : Exclusion) : Prop :=
  task.pc = .findAddr → ∀ id ∈ s.devices.byEndpoint.lookup task.device,
    ∀ dev ∈ s.devices.byId.lookup id, s.devices.byAddr.lookup dev.addr = some id ∧
      ∀ other ∈ s.devices.byId.values, other.addr = dev.addr → other.endpoint = task.device

/-- The exclusion a step moves. -/
def excluding (s : Server) : Action → Option Exclusion
  | .exclusion i => s.exclusions.get? i
  | _ => none

/-- The condition on a step. -/
def LeavesExclusions (s : Server) (action : Action) : Prop :=
  NewIdFree s action ∧
  (∀ task ∈ excluding s action, FindsAlone s task) ∧
  (∀ registered ∈ registering s action, ∀ task ∈ s.exclusions.all,
    RegistersApart task.device registered (remembered task.pc)) ∧
  ∀ endpoint ∈ marking s action, ∀ task ∈ s.exclusions.all, unmarked task.pc = true →
    endpoint ≠ task.device

instance (device : String) (registered : String × SocketAddr) :
    (place : Option (Option SocketAddr)) → Decidable (RegistersApart device registered place)
  | none => isTrue trivial
  | some none => inferInstanceAs (Decidable (_ ≠ _))
  | some (some _) => inferInstanceAs (Decidable (_ ↔ _))

-- The ids are a finite type: the instance that tries them all must not be found.
instance (s : Server) (task : Exclusion) : Decidable (FindsAlone s task) :=
  have : Decidable (∀ id ∈ s.devices.byEndpoint.lookup task.device,
      ∀ dev ∈ s.devices.byId.lookup id, s.devices.byAddr.lookup dev.addr = some id ∧
        ∀ other ∈ s.devices.byId.values, other.addr = dev.addr → other.endpoint = task.device) :=
    Option.decidableForallMem _
  inferInstanceAs (Decidable (_ → _))

instance (s : Server) (action : Action) : Decidable (LeavesExclusions s action) :=
  inferInstanceAs (Decidable (_ ∧ _ ∧ _ ∧ _))

/-! ## What the registry does to a device and its address -/

variable {env : Env} {s next : Server} {action : Action} {r r' : DeviceRegistry}
  {endpoint : String} {addr : SocketAddr} {id : UInt32} {dev : Device}

theorem endpoint_unique {other : UInt32} {found : Device} (sound : IndexesSound r)
    (stored : r.byId.lookup id = some dev) (held : r.byId.lookup other = some found)
    (same : dev.endpoint = found.endpoint) : id = other := by
  have first := (sound.byEndpoint _ _).mpr ⟨dev, stored, rfl⟩
  have second := (sound.byEndpoint _ _).mpr ⟨found, held, same.symm⟩
  exact Option.some.inj (first.symm.trans second)

theorem held_keep (held : Held r endpoint addr) (kept : KeepsIdentities r r') :
    Held r' endpoint addr := by
  intro id dev stored
  obtain ⟨before, was, -, sameEndpoint, sameAddr⟩ := kept.backward stored
  rw [sameEndpoint, sameAddr, kept.addrs]
  exact held id before was

theorem held_removeDevice (sound : IndexesSound r) (held : Held r endpoint addr)
    (stored : r.byId.lookup id = some dev) : Held (r.removeDevice id dev dev.addr) endpoint addr := by
  intro other kept present
  simp only [removeDevice, Table.lookup_erase_if] at present ⊢
  split at present
  · cases present
  · rename_i apart
    obtain ⟨owner, index⟩ := held other kept present
    refine ⟨owner, fun here => ?_⟩
    -- a second device with this address would be the same endpoint's
    have elsewhere : addr ≠ dev.addr := by
      intro same
      have both : kept.endpoint = dev.endpoint :=
        (owner.mpr here).trans ((held id dev stored).1.mpr same.symm).symm
      exact apart (endpoint_unique sound present stored both)
    rw [if_neg elsewhere]
    exact index here

theorem held_quiet (sound : IndexesSound r) (held : Held r endpoint addr) (quiet : Quiet r r') :
    Held r' endpoint addr := by
  induction quiet with
  | update kept => exact held_keep held kept
  | remove stored => exact held_removeDevice sound held stored
  | trans first _ one two => exact two (indexes_quiet sound first) (one sound held)

theorem absent_quiet (absent : Absent r endpoint) (quiet : Quiet r r') : Absent r' endpoint := by
  induction quiet with
  | update kept =>
    intro id dev stored
    obtain ⟨before, was, -, same, -⟩ := kept.backward stored
    rw [same]
    exact absent id before was
  | remove stored =>
    intro other kept present
    simp only [removeDevice, Table.lookup_erase_if] at present
    split at present
    · cases present
    · exact absent other kept present
  | trans _ _ one two => exact two (one absent)

theorem expected_quiet {place : Option SocketAddr} (sound : IndexesSound r)
    (expected : Expected r endpoint place) (quiet : Quiet r r') : Expected r' endpoint place := by
  cases place with
  | some addr => exact held_quiet sound expected quiet
  | none => exact absent_quiet expected quiet

section Registration
variable {now : Instant} {device : String} {from_ : SocketAddr} {reg : Registration}

theorem held_registered (registered : Registered r now device from_ reg (id, r'))
    (sound : IndexesSound r) (held : Held r endpoint addr)
    (apart : device = endpoint ↔ from_ = addr) : Held r' endpoint addr := by
  cases registered with
  | @refreshed _ dev known stored own here =>
    have same : SameIdentity dev (dev.refresh from_ reg now) := ⟨rfl, rfl, here.symm⟩
    exact held_quiet sound held (quiet_putDevice stored same)
  | @moved _ dev known stored own elsewhere =>
    have old := held id dev stored
    -- were it the endpoint's own device, it would be at the address already
    have other : device ≠ endpoint := by
      intro mine
      exact elsewhere ((old.1.mp (own.trans mine)).trans (apart.mp mine).symm)
    have away : addr ≠ from_ := fun same => other (apart.mpr same.symm)
    have left : addr ≠ dev.addr := fun same => other (own.symm.trans (old.1.mpr same.symm))
    intro probe found stored'
    simp only [Table.lookup_insert_if, Table.lookup_erase_if] at stored' ⊢
    rw [if_neg away, if_neg left]
    split at stored'
    · cases stored'
      refine ⟨⟨fun mine => absurd (own.symm.trans mine) other, fun here => ?_⟩, fun here => ?_⟩
      · exact absurd here.symm away
      · exact absurd here.symm away
    · exact held probe found stored'
  | added unknown =>
    intro probe found stored
    simp only [Table.lookup_insert_if] at stored ⊢
    split at stored
    · rename_i fresh
      cases stored
      refine ⟨apart, fun here => ?_⟩
      have there : addr = from_ := here.symm
      rw [if_pos there, fresh]
    · have old := held probe found stored
      refine ⟨old.1, fun here => ?_⟩
      by_cases same : addr = from_
      · -- the endpoint would be registered already
        have mine : found.endpoint = device := (old.1.mpr here).trans (apart.mpr same.symm).symm
        rw [(sound.byEndpoint device probe).mpr ⟨found, stored, mine⟩] at unknown
        cases unknown
      · rw [if_neg same]
        exact old.2 here

theorem absent_registered (registered : Registered r now device from_ reg (id, r'))
    (absent : Absent r endpoint) (other : device ≠ endpoint) : Absent r' endpoint := by
  intro probe found stored
  cases registered with
  | refreshed known held own here =>
    simp only [putDevice, Table.lookup_insert_if] at stored
    split at stored
    · cases stored
      exact fun mine => other (own.symm.trans mine)
    · exact absent probe found stored
  | moved known held own elsewhere =>
    simp only [Table.lookup_insert_if] at stored
    split at stored
    · cases stored
      exact fun mine => other (own.symm.trans mine)
    · exact absent probe found stored
  | added unknown =>
    simp only [Table.lookup_insert_if] at stored
    split at stored
    · cases stored
      exact other
    · exact absent probe found stored

theorem expected_registered {place : Option SocketAddr}
    (registered : Registered r now device from_ reg (id, r'))
    (sound : IndexesSound r) (expected : Expected r endpoint place)
    (apart : RegistersApart endpoint (device, from_) (some place)) : Expected r' endpoint place := by
  cases place with
  | some addr => exact held_registered registered sound expected apart
  | none => exact absent_registered registered expected apart

end Registration

/-! ## What the removal does -/

/-- Nothing of any other endpoint was taken from the registry: devices stay as
they are, with their operations, and are found as before. -/
structure Untouched (r r' : DeviceRegistry) (endpoint : String) : Prop where
  devices : ∀ id dev, r.byId.lookup id = some dev → dev.endpoint ≠ endpoint →
    r'.byId.lookup id = some dev
  endpoints : ∀ other, other ≠ endpoint → r'.byEndpoint.lookup other = r.byEndpoint.lookup other
  addrs : ∀ addr id dev, r.byAddr.lookup addr = some id → r.byId.lookup id = some dev →
    dev.endpoint ≠ endpoint → r'.byAddr.lookup addr = some id

theorem Untouched.refl (r : DeviceRegistry) (endpoint : String) : Untouched r r endpoint :=
  ⟨fun _ _ stored _ => stored, fun _ _ => rfl, fun _ _ _ index _ _ => index⟩

/-- **Removing at the address where the endpoint is held** takes it out, and
nothing else. -/
theorem removeByAddr_of_held (sound : IndexesSound r) (held : Held r endpoint addr) :
    Absent (r.removeByAddr addr).2.2 endpoint ∧ Untouched r (r.removeByAddr addr).2.2 endpoint := by
  cases index : r.byAddr.lookup addr with
  | none =>
    have missing : r.removeByAddr addr = (none, [], r) := by
      simp only [removeByAddr, index]
    rw [missing]
    refine ⟨fun id dev stored mine => ?_, .refl r endpoint⟩
    have entry := (held id dev stored).2 ((held id dev stored).1.mp mine)
    rw [index] at entry
    cases entry
  | some id =>
    obtain ⟨dev, stored, here⟩ := sound.byAddr addr id index
    have removed : r.removeByAddr addr =
        (some dev.endpoint, timeoutReplies dev, r.removeDevice id dev addr) := by
      simp only [removeByAddr, index, stored]
    rw [removed]
    have mine : dev.endpoint = endpoint := (held id dev stored).1.mpr here
    constructor
    · intro other found present own
      simp only [removeDevice, Table.lookup_erase_if] at present
      split at present
      · cases present
      · rename_i apart
        exact apart (endpoint_unique sound present stored (own.trans mine.symm))
    · constructor
      · intro other found present foreign
        have apart : other ≠ id := by
          rintro rfl
          rw [stored] at present
          cases present
          exact foreign mine
        simp only [removeDevice, Table.lookup_erase_if, if_neg apart, present]
      · intro other foreign
        simp only [removeDevice, Table.lookup_erase_if, mine, if_neg foreign]
      · intro probe other found entry present foreign
        have apart : probe ≠ addr := by
          rintro rfl
          rw [index] at entry
          cases entry
          rw [stored] at present
          cases present
          exact foreign mine
        simp only [removeDevice, Table.lookup_erase_if, if_neg apart, entry]

/-! ## One step -/

/-- Every exclusion in progress finds what it expects. -/
structure Tracked (s : Server) : Prop where
  sound : IndexesSound s.devices
  expected : ∀ i task, s.exclusions.get? i = some task →
    ∀ place ∈ remembered task.pc, Expected s.devices task.device place
  excluded : ∀ i task, s.exclusions.get? i = some task → unmarked task.pc = true →
    task.device ∉ s.boot.included

/-- A step of some other task that registers nobody and marks nobody. -/
theorem Tracked.keep (tracked : Tracked s) (quiet : Quiet s.devices next.devices)
    (exclusions : next.exclusions = s.exclusions)
    (included : next.boot.included ⊆ s.boot.included) : Tracked next where
  sound := indexes_quiet tracked.sound quiet
  expected i task held place at_ := by
    rw [exclusions] at held
    exact expected_quiet tracked.sound (tracked.expected i task held place at_) quiet
  excluded i task held gone marked := by
    rw [exclusions] at held
    exact tracked.excluded i task held gone (included marked)

/-- A step of an exclusion, by where it leads. -/
theorem Tracked.move {i : Nat} {task : Exclusion} {pc : ExclusionPc} (tracked : Tracked s)
    (held : s.exclusions.get? i = some task) (quiet : Quiet s.devices next.devices)
    (exclusions : next.exclusions = s.exclusions.update i { task with pc })
    (included : next.boot.included ⊆ s.boot.included)
    (expected : ∀ place ∈ remembered pc, Expected next.devices task.device place)
    (excluded : unmarked pc = true → task.device ∉ next.boot.included) : Tracked next where
  sound := indexes_quiet tracked.sound quiet
  expected j other present place at_ := by
    rw [exclusions, Tasks.get?_update _ held] at present
    split at present
    · cases present
      exact expected place at_
    · exact expected_quiet tracked.sound (tracked.expected j other present place at_) quiet
  excluded j other present gone marked := by
    rw [exclusions, Tasks.get?_update _ held] at present
    split at present
    · cases present
      exact excluded gone marked
    · exact tracked.excluded j other present gone (included marked)

theorem mem_all {i : Nat} {task : Exclusion} (held : s.exclusions.get? i = some task) :
    task ∈ s.exclusions.all := List.mem_of_getElem? held

/-- The lookup of an exclusion finds the device alone at its address. -/
theorem held_of_findsAlone {task : Exclusion} (sound : IndexesSound s.devices)
    (alone : FindsAlone s task) (pc : task.pc = .findAddr)
    (known : s.devices.byEndpoint.lookup task.device = some id)
    (stored : s.devices.byId.lookup id = some dev) : Held s.devices task.device dev.addr := by
  obtain ⟨index, others⟩ := alone pc id known dev stored
  obtain ⟨found, present, mine⟩ := (sound.byEndpoint _ _).mp known
  rw [stored] at present
  cases present
  intro other device held
  have same (own : device.endpoint = task.device) : other = id :=
    endpoint_unique sound held stored (own.trans mine.symm)
  have owner (here : device.addr = dev.addr) : device.endpoint = task.device :=
    others device (Table.mem_values.mpr ⟨other, held⟩) here
  refine ⟨⟨fun own => ?_, owner⟩, fun here => ?_⟩
  · have there := same own
    subst there
    rw [stored] at held
    cases held
    rfl
  · rw [index, same (owner here)]

theorem tracked_step (tracked : Tracked s) (leaves : LeavesExclusions s action)
    (ran : s.step env action = some next) : Tracked next := by
  obtain ⟨free, alone, apart, unmarks⟩ := leaves
  have sound := indexes_step tracked.sound free ran
  cases device_move tracked.sound.resolve ran with
  | @register endpoint reg packet addr devices choice response id position registered =>
    have registers : registering s (.recv choice) = some (endpoint, addr) := by
      rw [registering, position]
    refine ⟨sound, fun i task held place at_ => ?_, tracked.excluded⟩
    have clear := apart _ registers task (mem_all held)
    rw [at_] at clear
    exact expected_registered registered tracked.sound (tracked.expected i task held place at_) clear
  | @mark i task choice log held pc =>
    have marks : marking s (.phase i choice) = some task.endpoint := by
      simp [marking, held, pc]
    refine ⟨tracked.sound, tracked.expected, fun j other present gone marked => ?_⟩
    rcases Finset.mem_insert.mp marked with new | old
    · exact unmarks _ marks other (mem_all present) gone new.symm
    · exact tracked.excluded j other present gone old
  | @exclude device =>
    refine ⟨tracked.sound, fun i task held => ?_, fun i task held => ?_⟩ <;>
      rw [Tasks.get?_spawn] at held <;> split at held
    · cases held
      intro place at_
      cases at_
    · exact tracked.expected i task held
    · cases held
      intro gone
      cases gone
    · exact tracked.excluded i task held
  | @missing i task held pc absent =>
    refine tracked.move held (.refl _) rfl (Finset.Subset.refl _) ?_ fun gone => by cases gone
    rintro place ⟨⟩ id dev stored mine
    rw [(tracked.sound.byEndpoint _ _).mpr ⟨dev, stored, mine⟩] at absent
    cases absent
  | @found i task dev id held pc known stored =>
    refine tracked.move held (.refl _) rfl (Finset.Subset.refl _) ?_ fun gone => by cases gone
    rintro place ⟨⟩
    exact held_of_findsAlone tracked.sound (alone task held) pc known stored
  | @waited i task addr held pc =>
    refine tracked.move held (.refl _) rfl (Finset.Subset.refl _) ?_ fun gone => by cases gone
    rintro place ⟨⟩
    exact tracked.expected i task held _ (by rw [pc]; rfl)
  | @unmark i task place log held pc =>
    refine tracked.move held (.refl _) rfl (Finset.erase_subset ..) ?_ fun _ => ?_
    · rintro place ⟨⟩
      exact tracked.expected i task held _ (by rw [pc]; rfl)
    · exact Finset.notMem_erase _ _
  | @skip i task held pc =>
    refine tracked.move held (.refl _) rfl (Finset.Subset.refl _) ?_ fun _ => ?_
    · rintro place ⟨⟩
      exact tracked.expected i task held _ (by rw [pc]; rfl)
    · exact tracked.excluded i task held (by rw [pc]; rfl)
  | @deregister i task addr replies held pc =>
    refine tracked.move held (quiet_removeByAddr tracked.sound.resolve addr) rfl
      (Finset.Subset.refl _) ?_ fun _ => ?_
    · rintro place ⟨⟩
      exact (removeByAddr_of_held tracked.sound
        (tracked.expected i task held (some addr) (by rw [pc]; rfl))).1
    · exact tracked.excluded i task held (by rw [pc]; rfl)
  | finish held pc =>
    refine tracked.move held (.refl _) rfl (Finset.Subset.refl _) (fun place at_ => ?_) fun gone => ?_
    · cases at_
    · cases gone
  | remove held =>
    exact tracked.keep (quiet_removeByAddr tracked.sound.resolve _) rfl (Finset.Subset.refl _)
  | other _ quiet neutral included =>
    exact tracked.keep quiet rfl (included ▸ Finset.Subset.refl _)
  | _ => exact tracked.keep (.refl _) rfl (Finset.Subset.refl _)

theorem reached_tracked (reached : (soundServer env).Reaches LeavesExclusions s) : Tracked s := by
  refine reached.invariant Tracked (fun s initial => ?_) ?_
  · have sound := start_indexes initial
    obtain ⟨seed, serverUri, included, now, snapshots, clock, -, -, rfl⟩ := initial
    refine ⟨sound, ?_, ?_⟩ <;> intro i task held <;> simp [Server.initial] at held
  · intro s action next _ tracked leaves ran
    exact tracked_step tracked leaves ran

/-! ## Whole runs -/

/-- What every step of an exclusion must do: leave other endpoints alone, and
at the step by which it returns, leave the device neither included nor
registered. -/
def CompleteAndLocal (env : Env) (s : Server) : Prop :=
  ∀ i task next, s.exclusions.get? i = some task → s.step env (.exclusion i) = some next →
    Untouched s.devices next.devices task.device ∧
    ((next.exclusions.get? i).map (·.pc) = some .finished →
      task.device ∉ next.boot.included ∧ Absent next.devices task.device)

/-- **Exclusion is complete and local** in a run in which the device being
excluded stays at the address found for it, alone. -/
theorem reached_complete_and_local (reached : (soundServer env).Reaches LeavesExclusions s) :
    CompleteAndLocal env s := by
  intro i task next held ran
  have tracked := reached_tracked reached
  have at_ {pc : ExclusionPc} {other : Exclusion} (present : s.exclusions.get? i = some other) :
      ((s.exclusions.update i { other with pc }).get? i).map (·.pc) = some pc := by
    rw [Tasks.get?_update _ present, if_pos rfl]
    rfl
  cases device_move tracked.sound.resolve ran with
  | other elsewhere => cases elsewhere
  | @finish _ other present pc =>
    rw [held] at present
    cases present
    refine ⟨.refl _ _, fun _ => ⟨tracked.excluded i task held (by rw [pc]; rfl), ?_⟩⟩
    exact tracked.expected i task held none (by rw [pc]; rfl)
  | @deregister _ other addr replies present pc =>
    rw [held] at present
    cases present
    have expected := tracked.expected i task held (some addr) (by rw [pc]; rfl)
    refine ⟨(removeByAddr_of_held tracked.sound expected).2, fun ended => ?_⟩
    rw [at_ held] at ended
    cases ended
  | missing present | found present | waited present | unmark present | skip present =>
    refine ⟨.refl _ _, fun ended => ?_⟩
    rw [at_ present] at ended
    cases ended

/-- A packet from some address is handled in a number of steps. -/
def deliverFrom (addr : SocketAddr) (packet : Packet) (steps : Nat) : List Action :=
  .receive (some packet) addr :: List.replicate steps (.recv {})

/-- Two included devices; one of them is excluded while both keep registering
from their own addresses. -/
def excludedInPlace : List Action :=
  deliverFrom (.v4 1 5683) (Peer.post "rd" "mower") 4 ++
    deliverFrom (.v4 2 5683) (Peer.post "rd" "pump") 4 ++
    [.excludeDevice "mower", .exclusion 0] ++
    deliverFrom (.v4 1 5683) (Peer.post "rd" "mower") 4 ++
    deliverFrom (.v4 2 5683) (Peer.post "rd" "pump") 4 ++
    [.exclusion 0, .exclusion 0, .exclusion 0]

/-- The server with two devices in its included list. -/
def included : Server := .initial 0 (some "coaps://gateway") ["mower", "pump"] .new 0

theorem start_included : (soundServer Peer.env).start included :=
  ⟨0, some "coaps://gateway", ["mower", "pump"], 0, [], 0, by simp, by simp, rfl⟩

theorem excluded_in_place :
    ∃ s, (soundServer Peer.env).exec LeavesExclusions included excludedInPlace = some s ∧
      CompleteAndLocal Peer.env s ∧
      (s.step Peer.env (.exclusion 0)).any (fun next =>
        (next.exclusions.get? 0).any (·.pc = .finished) &&
          (next.devices.byEndpoint.lookup "pump").isSome) = true := by
  obtain ⟨s, ran, reached, seen⟩ := (soundServer Peer.env).exec_reaches LeavesExclusions included
    excludedInPlace
    (fun s : Server => (s.step Peer.env (.exclusion 0)).any fun next : Server =>
      (next.exclusions.get? 0).any (fun task : Exclusion => task.pc = .finished) &&
        (next.devices.byEndpoint.lookup "pump").isSome)
    start_included (by decide +kernel)
  exact ⟨s, ran, reached_complete_and_local reached, seen⟩

/-- During the wait the device moves to another address and a second device
registers from the one it had. -/
def excludedWhileMoving : List Action :=
  deliverFrom (.v4 1 5683) (Peer.post "rd" "mower") 4 ++
    [.excludeDevice "mower", .exclusion 0] ++
    deliverFrom (.v4 2 5683) (Peer.post "rd" "mower") 4 ++
    deliverFrom (.v4 1 5683) (Peer.post "rd" "pump") 4 ++
    [.exclusion 0, .exclusion 0]

/-- The second device is removed and the excluded one stays registered. -/
theorem excluded_while_moving :
    ∃ s, (soundServer Peer.env).Reaches Machine.always s ∧ ¬ CompleteAndLocal Peer.env s := by
  obtain ⟨s, -, reached, seen⟩ := (soundServer Peer.env).exec_reaches Machine.always included
    excludedWhileMoving
    (fun s : Server => (s.exclusions.get? 0).any (fun task : Exclusion => task.device = "mower") &&
      (s.devices.byEndpoint.lookup "pump").isSome &&
      (s.step Peer.env (.exclusion 0)).any fun next : Server =>
        (next.devices.byEndpoint.lookup "pump").isNone &&
          (next.devices.byEndpoint.lookup "mower").isSome)
    start_included (by decide +kernel)
  refine ⟨s, reached, fun complete => ?_⟩
  simp only [Bool.and_eq_true] at seen
  obtain ⟨⟨excluding, before⟩, ran⟩ := seen
  obtain ⟨task, held, named⟩ := (Option.any_eq_true _ _).mp excluding
  obtain ⟨next, ran, ended⟩ := (Option.any_eq_true _ _).mp ran
  obtain ⟨gone, -⟩ := Bool.and_eq_true_iff.mp ended
  have untouched := (complete 0 task next held ran).1.endpoints "pump" (by
    rw [of_decide_eq_true named]
    decide)
  rw [Option.isNone_iff_eq_none.mp gone] at untouched
  rw [← untouched] at before
  cases before

end Lwm2mServer.ExclusionEffect
