import Lwm2mServer.DeviceRecords
import Lwm2mServer.RegistryIndexes

/-! The online flag of a registered endpoint, call by call. `touch` and
`set_device_offline` turn it and return the endpoint they turned it for, a new
registration begins with it set, and no other call changes it. -/
namespace Lwm2mServer.OnlineFlag
open Library DeviceRecords DeviceRegistry RegistryIndexes

/-- The flag of the device registered for an endpoint, if there is one. -/
def onlineOf (r : DeviceRegistry) (endpoint : String) : Option (Option Bool) :=
  (r.byEndpoint.lookup endpoint).bind fun id => (r.byId.lookup id).map (·.online)

/-- The endpoint whose flag a call turns, and the new value: what the call
returns to be reported. -/
def flips (r : DeviceRegistry) : Op → Option (String × Bool)
  | .touch now addr => ((r.touch now addr).bind (·.1)).map fun endpoint => (endpoint, true)
  | .setDeviceOffline now addr =>
    (r.setDeviceOffline now addr).1.map fun endpoint => (endpoint, false)
  | _ => none

/-- No flag was turned; endpoints may have been removed. -/
def KeepsOnline (r r' : DeviceRegistry) : Prop :=
  ∀ endpoint, onlineOf r' endpoint = none ∨ onlineOf r' endpoint = onlineOf r endpoint

/-- The flag of one endpoint was set. -/
def SetsOnline (r r' : DeviceRegistry) (endpoint : String) (online : Bool) : Prop :=
  onlineOf r' endpoint = some (some online) ∧
    ∀ other, other ≠ endpoint → onlineOf r' other = onlineOf r other

variable {r r' : DeviceRegistry} {id : UInt32} {dev changed : Device} {endpoint : String}

theorem KeepsOnline.refl (r : DeviceRegistry) : KeepsOnline r r := fun _ => Or.inr rfl

theorem KeepsOnline.trans {middle : DeviceRegistry} (first : KeepsOnline r middle)
    (second : KeepsOnline middle r') : KeepsOnline r r' := by
  intro endpoint
  rcases second endpoint with gone | same
  · exact Or.inl gone
  · rw [same]
    exact first endpoint

theorem onlineOf_putDevice (id : UInt32) (changed : Device) (endpoint : String) :
    onlineOf (r.putDevice id changed) endpoint =
      if r.byEndpoint.lookup endpoint = some id then some changed.online else onlineOf r endpoint := by
  simp only [onlineOf, putDevice]
  cases known : r.byEndpoint.lookup endpoint with
  | none => simp
  | some other =>
    by_cases same : other = id
    · simp [same]
    · have apart : some other ≠ some id := fun equal => same (Option.some.inj equal)
      simp [Table.lookup_insert_if, same, apart]

theorem keeps_putDevice (stored : r.byId.lookup id = some dev) (same : changed.online = dev.online) :
    KeepsOnline r (r.putDevice id changed) := by
  intro endpoint
  rw [onlineOf_putDevice]
  split
  · rename_i known
    right
    simp [onlineOf, known, stored, same]
  · exact Or.inr rfl

theorem keeps_mapVals (change : UInt32 → Device → Device)
    (same : ∀ id dev, (change id dev).online = dev.online) :
    KeepsOnline r { r with byId := r.byId.mapVals change } := by
  intro endpoint
  right
  simp only [onlineOf, Table.lookup_mapVals, Option.map_map]
  congr 1
  funext id
  congr 1
  funext dev
  exact same id dev

theorem keeps_removeDevice (addr : SocketAddr) : KeepsOnline r (r.removeDevice id dev addr) := by
  intro endpoint
  simp only [onlineOf, removeDevice, Table.lookup_erase_if]
  split
  · exact Or.inl rfl
  · cases known : r.byEndpoint.lookup endpoint with
    | none => exact Or.inl rfl
    | some other =>
      by_cases same : other = id
      · simp [same]
      · simp [same]

theorem keeps_expireStale (now : Instant) (graceSecs : UInt32) :
    KeepsOnline r (r.expireStale now graceSecs).2.2 := by
  unfold expireStale
  generalize (r.byId.values.filter (·.isExpired now graceSecs)).map (·.id) = expired
  suffices loop : ∀ acc : List String × List Reply × DeviceRegistry,
      KeepsOnline acc.2.2 (expired.foldl expireOne acc).2.2 from loop ([], [], r)
  induction expired with
  | nil => exact fun acc => .refl acc.2.2
  | cons id rest ih =>
    intro acc
    refine KeepsOnline.trans ?_ (ih _)
    simp only [expireOne]
    split
    · exact .refl acc.2.2
    · exact keeps_removeDevice _

theorem keeps_removeByAddr (addr : SocketAddr) : KeepsOnline r (r.removeByAddr addr).2.2 := by
  unfold removeByAddr
  split
  · exact .refl r
  · split
    · exact .refl r
    · exact keeps_removeDevice addr

/-- The other calls change devices where they are, and not their flags. -/
theorem keeps_rewritten {op : Op} (rewritten : Rewritten r op r')
    (same : ∀ id dev, (deviceAfter r id dev op).online = dev.online) : KeepsOnline r r' := by
  cases rewritten with
  | kept => exact .refl r
  | put held => exact keeps_putDevice held (same _ _)
  | map change each =>
    refine keeps_mapVals _ fun id dev => ?_
    rw [← each id dev]
    exact same id dev

/-! ## The calls that set a flag -/

theorem sets_putDevice (sound : IndexesSound r) (stored : r.byId.lookup id = some dev) {online : Bool}
    (set : changed.online = some online) :
    SetsOnline r (r.putDevice id changed) dev.endpoint online := by
  refine ⟨?_, fun other apart => ?_⟩
  · rw [onlineOf_putDevice, if_pos ((sound.byEndpoint _ _).mpr ⟨dev, stored, rfl⟩), set]
  · rw [onlineOf_putDevice, if_neg]
    intro known
    obtain ⟨found, held, named⟩ := (sound.byEndpoint other id).mp known
    rw [stored] at held
    cases held
    exact apart named.symm

theorem touch_online (sound : IndexesSound r) (now : Instant) (addr : SocketAddr) :
    ∃ came next, r.touch now addr = some (came, next) ∧
      ((came = none ∧ KeepsOnline r next) ∨ ∃ endpoint, came = some endpoint ∧
        SetsOnline r next endpoint true) := by
  cases found : r.byAddr.lookup addr with
  | none => exact ⟨none, r, by simp [touch, found], Or.inl ⟨rfl, .refl r⟩⟩
  | some id =>
    obtain ⟨dev, held, -⟩ := sound.byAddr addr id found
    by_cases online : dev.online = some true
    · refine ⟨none, r.putDevice id { dev with lastContact := now, addr },
        by simp [touch, found, held, online], Or.inl ⟨rfl, keeps_putDevice held rfl⟩⟩
    · refine ⟨some dev.endpoint, r.putDevice id
        { dev with lastContact := now, addr, online := some true, offlineSince := none },
        by simp [touch, found, held, online], Or.inr ⟨_, rfl, sets_putDevice sound held rfl⟩⟩

theorem setDeviceOffline_online (sound : IndexesSound r) (now : Instant) (addr : SocketAddr) :
    ((r.setDeviceOffline now addr).1 = none ∧ KeepsOnline r (r.setDeviceOffline now addr).2) ∨
      ∃ endpoint, (r.setDeviceOffline now addr).1 = some endpoint ∧
        SetsOnline r (r.setDeviceOffline now addr).2 endpoint false := by
  unfold setDeviceOffline
  split
  · exact Or.inl ⟨rfl, .refl r⟩
  · split
    · exact Or.inl ⟨rfl, .refl r⟩
    · rename_i dev held
      split
      · exact Or.inr ⟨_, rfl, sets_putDevice sound held rfl⟩
      · exact Or.inl ⟨rfl, .refl r⟩

theorem registered_online {now : Instant} {addr : SocketAddr} {reg : Registration}
    (sound : IndexesSound r) (registered : Registered r now endpoint addr reg (id, r'))
    (free : r.byEndpoint.lookup endpoint = none → r.byId.lookup r.nextId = none) :
    KeepsOnline r r' ∨ (r.byEndpoint.lookup endpoint = none ∧ SetsOnline r r' endpoint true) := by
  cases registered with
  | refreshed known held => exact Or.inl (keeps_putDevice held rfl)
  | moved known held => exact Or.inl (keeps_putDevice held rfl)
  | added unknown =>
    refine Or.inr ⟨unknown, ?_, fun other apart => ?_⟩
    · simp [onlineOf, Device.new]
    · simp only [onlineOf, Table.lookup_insert_if, apart, if_false]
      cases known : r.byEndpoint.lookup other with
      | none => rfl
      | some old =>
        obtain ⟨found, held, -⟩ := (sound.byEndpoint other old).mp known
        have used : old ≠ r.nextId := by
          intro same
          rw [same, free unknown] at held
          cases held
        simp [used]

/-- **What a call does to the flags**: nothing, or the one thing it returns, or
the first flag of a new registration. -/
theorem online_apply {op : Op} (sound : IndexesSound r)
    (free : ∀ now endpoint addr reg, op = .register now endpoint addr reg →
      r.byEndpoint.lookup endpoint = none → r.byId.lookup r.nextId = none)
    (ran : r.apply op = some r') :
    (flips r op = none ∧ KeepsOnline r r') ∨
    (∃ endpoint online, flips r op = some (endpoint, online) ∧ SetsOnline r r' endpoint online) ∨
    (∃ now endpoint addr reg, op = .register now endpoint addr reg ∧
      r.byEndpoint.lookup endpoint = none ∧ flips r op = none ∧ SetsOnline r r' endpoint true) := by
  cases op with
  | touch now addr =>
    obtain ⟨came, next, called, ⟨rfl, kept⟩ | ⟨endpoint, rfl, set⟩⟩ := touch_online sound now addr
    · simp only [apply, called, Option.map_some] at ran
      cases ran
      exact Or.inl ⟨by simp [flips, called], kept⟩
    · simp only [apply, called, Option.map_some] at ran
      cases ran
      exact Or.inr (Or.inl ⟨endpoint, true, by simp [flips, called], set⟩)
  | setDeviceOffline now addr =>
    cases ran
    rcases setDeviceOffline_online sound now addr with ⟨none, kept⟩ | ⟨endpoint, some, set⟩
    · exact Or.inl ⟨by simp [flips, none], kept⟩
    · exact Or.inr (Or.inl ⟨endpoint, false, by simp [flips, some], set⟩)
  | register now endpoint addr reg =>
    obtain ⟨⟨id, next⟩, called, registered⟩ := registered_register sound.resolve now endpoint addr reg
    simp only [apply, called, Option.map_some] at ran
    cases ran
    rcases registered_online sound registered (free now endpoint addr reg rfl) with
      kept | ⟨unknown, set⟩
    · exact Or.inl ⟨rfl, kept⟩
    · exact Or.inr (Or.inr ⟨now, endpoint, addr, reg, rfl, unknown, rfl, set⟩)
  | expireStale now graceSecs =>
    cases ran
    exact Or.inl ⟨rfl, keeps_expireStale now graceSecs⟩
  | removeByAddr addr =>
    cases ran
    exact Or.inl ⟨rfl, keeps_removeByAddr addr⟩
  | renewRegistration | placeInFlight | takePingCandidates | completeInFlight | restoreDeviceState
  | drainPending | mergeDeviceStateByAddr =>
    refine Or.inl ⟨rfl, keeps_rewritten (apply_rewritten rfl ran) fun id dev => ?_⟩
    simp only [deviceAfter]
    split <;> rfl
  | _ => exact Or.inl ⟨rfl, keeps_rewritten (apply_rewritten rfl ran) fun _ _ => rfl⟩

end Lwm2mServer.OnlineFlag
