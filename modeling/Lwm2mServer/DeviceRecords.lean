import Lwm2mServer.Registry

/-! What the registry's calls do to a device. `apply_device` says it for all
calls at once; `apply_record` is its part about what outlives them, which is who
the device is, the state it reported and the term of its registration. -/
namespace Lwm2mServer.DeviceRecords
open Library DeviceRegistry

/-- Identity, reported state and registration term of a device. -/
structure Record where
  id : UInt32
  endpoint : String
  state : Json
  since : Instant
  lifetime : UInt32

def recordOf (dev : Device) : Record :=
  ⟨dev.id, dev.endpoint, dev.state, dev.lastRegisteredAt, dev.lifetime⟩

/-- The record of device `id` after a call. -/
def recordAfter (r : DeviceRegistry) (id : UInt32) (kept : Record) : Op → Record
  | .register now endpoint _ reg =>
    if r.byEndpoint.lookup endpoint = some id then { kept with since := now, lifetime := reg.lifetime }
    else kept
  | .renewRegistration now addr newLifetime =>
    if r.byAddr.lookup addr = some id then
      { kept with since := now, lifetime := newLifetime.getD kept.lifetime }
    else kept
  | .mergeDeviceStateByAddr addr newState =>
    if r.byAddr.lookup addr = some id then { kept with state := kept.state.merge newState } else kept
  | .restoreDeviceState endpoint state =>
    if r.byEndpoint.lookup endpoint = some id then { kept with state } else kept
  | _ => kept

/-- Device `id` after a call that does not remove it. -/
def deviceAfter (r : DeviceRegistry) (id : UInt32) (dev : Device) : Op → Device
  | .register now endpoint addr reg =>
    if r.byEndpoint.lookup endpoint = some id then dev.refresh addr reg now else dev
  | .renewRegistration now addr newLifetime =>
    if r.byAddr.lookup addr = some id then
      { dev with lastRegisteredAt := now, lifetime := newLifetime.getD dev.lifetime }
    else dev
  | .touch now addr =>
    if r.byAddr.lookup addr = some id then
      if dev.online = some true then { dev with lastContact := now, addr }
      else { dev with lastContact := now, addr, online := some true, offlineSince := none }
    else dev
  | .setDeviceOffline now addr =>
    if r.byAddr.lookup addr = some id ∧ dev.online = some true then
      { dev with online := some false, offlineSince := some now }
    else dev
  | .takePingCandidates now offlineInterval onlineInterval offlineMaxDuration =>
    if needsPing now offlineInterval onlineInterval offlineMaxDuration dev then
      { dev with lastPingAttempt := some now }
    else dev
  | .drainPending addr =>
    if r.byAddr.lookup addr = some id then { dev with pendingOps := [] } else dev
  | .placeInFlight addr token op =>
    if r.byAddr.lookup addr = some id then { dev with inFlight := dev.inFlight.insert token op } else dev
  | .completeInFlight addr token =>
    if r.byAddr.lookup addr = some id then { dev with inFlight := dev.inFlight.erase token } else dev
  | .timeoutInFlight now maxSecs =>
    { dev with inFlight := dev.inFlight.filterVals fun _ op => !timedOut now maxSecs op }
  | .mergeDeviceStateByAddr addr newState =>
    if r.byAddr.lookup addr = some id then { dev with state := dev.state.merge newState } else dev
  | .restoreDeviceState endpoint state =>
    if r.byEndpoint.lookup endpoint = some id then { dev with state } else dev
  | _ => dev

variable {r r' : DeviceRegistry} {op : Op} {id target : UInt32} {dev changed found : Device}

/-! ## Calls that change devices where they are -/

/-- Calls that neither add nor remove a device. -/
def rewrites : Op → Bool
  | .register .. | .expireStale .. | .removeByAddr .. => false
  | _ => true

/-- Everything such a call can do to the registry. -/
inductive Rewritten (r : DeviceRegistry) (op : Op) : DeviceRegistry → Prop where
  | kept (same : ∀ id dev, r.byId.lookup id = some dev → deviceAfter r id dev op = dev) :
      Rewritten r op r
  | put {id : UInt32} {dev : Device} (held : r.byId.lookup id = some dev)
      (others : ∀ other dev, other ≠ id → deviceAfter r other dev op = dev) :
      Rewritten r op (r.putDevice id (deviceAfter r id dev op))
  | map (change : Device → Device) (each : ∀ id dev, deviceAfter r id dev op = change dev) :
      Rewritten r op { r with byId := r.byId.mapVals fun _ => change }

section Found
variable {index : Option UInt32}

/-- The index has no id for the call. -/
private theorem rewritten_unknown (others : ∀ id dev, index ≠ some id → deviceAfter r id dev op = dev)
    (unknown : index = none) : Rewritten r op r :=
  .kept fun id dev _ => others id dev (by simp [unknown])

/-- The id has no device. -/
private theorem rewritten_gone (others : ∀ id dev, index ≠ some id → deviceAfter r id dev op = dev)
    (known : index = some target) (gone : r.byId.lookup target = none) : Rewritten r op r := by
  refine .kept fun id dev held => others id dev ?_
  rintro found
  cases known.symm.trans found
  rw [gone] at held
  cases held

/-- The device that was found is changed. -/
private theorem rewritten_found (others : ∀ id dev, index ≠ some id → deviceAfter r id dev op = dev)
    (known : index = some target) (held : r.byId.lookup target = some dev)
    (here : deviceAfter r target dev op = changed) : Rewritten r op (r.putDevice target changed) := by
  rw [← here]
  refine .put held fun id dev apart => others id dev fun found => ?_
  exact apart (Option.some.inj (found.symm.trans known))

end Found

/-- The methods that find a device through one of the indexes and change it. -/
private theorem rewritten_match (index : Option UInt32) (change : Device → Device) :
    (∀ id dev, deviceAfter r id dev op = if index = some id then change dev else dev) →
    Rewritten r op (match index with
      | none => r
      | some id => match r.byId.lookup id with
        | none => r
        | some dev => r.putDevice id (change dev)) := by
  intro after
  have others (id : UInt32) (dev : Device) (other : index ≠ some id) : deviceAfter r id dev op = dev := by
    rw [after, if_neg other]
  cases index with
  | none => exact rewritten_unknown others rfl
  | some target =>
    cases held : r.byId.lookup target with
    | none => simpa only [held] using rewritten_gone others rfl held
    | some dev =>
      simpa only [held] using rewritten_found others rfl held ((after target dev).trans (if_pos rfl))

/-- **Every such call** changes no device, the one it finds, or all of them alike. -/
theorem apply_rewritten (rewrites_ : rewrites op = true) (ran : r.apply op = some r') :
    Rewritten r op r' := by
  cases op with
  | register | expireStale | removeByAddr => cases rewrites_
  | renewRegistration | placeInFlight | restoreDeviceState =>
    cases ran
    refine rewritten_match _ _ ?_
    exact fun _ _ => rfl
  | completeInFlight addr token =>
    cases ran
    unfold completeInFlight
    split
    · exact rewritten_unknown (fun _ _ other => if_neg other) ‹_›
    · split
      · exact rewritten_gone (fun _ _ other => if_neg other) ‹_› ‹_›
      · rename_i known _ _ held
        exact rewritten_found (fun _ _ other => if_neg other) known held (if_pos known)
  | touch now addr =>
    obtain ⟨result, touched, rfl⟩ := Option.map_eq_some_iff.mp ran
    unfold touch at touched
    split at touched
    · cases touched
      exact rewritten_unknown (fun _ _ other => if_neg other) ‹_›
    · rename_i known
      obtain ⟨dev, held, touched⟩ := Option.bind_eq_some_iff.mp touched
      have found (changed : Device)
          (here : (if dev.online = some true then { dev with lastContact := now, addr }
            else { dev with lastContact := now, addr, online := some true, offlineSince := none }) =
              changed) : Rewritten r (.touch now addr) (r.putDevice _ changed) :=
        rewritten_found (fun _ _ other => if_neg other) known held ((if_pos known).trans here)
      dsimp only at touched
      split at touched
      · rename_i offline
        cases touched
        exact found _ (if_neg offline)
      · rename_i online
        cases touched
        exact found _ (if_pos (not_not.mp online))
  | setDeviceOffline now addr =>
    have others (id : UInt32) (dev : Device) (other : r.byAddr.lookup addr ≠ some id) :
        deviceAfter r id dev (.setDeviceOffline now addr) = dev := if_neg fun both => other both.1
    cases ran
    unfold setDeviceOffline
    split
    · exact rewritten_unknown others ‹_›
    · split
      · exact rewritten_gone others ‹_› ‹_›
      · rename_i known _ dev held
        split
        · rename_i online
          exact rewritten_found others known held (if_pos ⟨known, online⟩)
        · rename_i offline
          refine .kept fun id dev' held' => if_neg fun both => offline ?_
          cases known.symm.trans both.1
          cases held.symm.trans held'
          exact both.2
  | drainPending addr =>
    obtain ⟨result, drained, rfl⟩ := Option.map_eq_some_iff.mp ran
    unfold drainPending at drained
    split at drained
    · cases drained
      exact rewritten_unknown (fun _ _ other => if_neg other) ‹_›
    · rename_i known
      obtain ⟨dev, held, drained⟩ := Option.bind_eq_some_iff.mp drained
      cases drained
      exact rewritten_found (fun _ _ other => if_neg other) known held (if_pos known)
  | mergeDeviceStateByAddr addr newState =>
    obtain ⟨result, merged, rfl⟩ := Option.map_eq_some_iff.mp ran
    unfold mergeDeviceStateByAddr at merged
    split at merged
    · cases merged
      exact rewritten_unknown (fun _ _ other => if_neg other) ‹_›
    · rename_i known
      obtain ⟨dev, held, merged⟩ := Option.bind_eq_some_iff.mp merged
      cases merged
      exact rewritten_found (fun _ _ other => if_neg other) known held (if_pos known)
  | takePingCandidates | timeoutInFlight =>
    cases ran
    exact .map _ fun _ _ => rfl
  | _ =>
    -- the calls that only read
    obtain ⟨_, -, rfl⟩ := Option.map_eq_some_iff.mp ran
    exact .kept fun _ _ _ => rfl

/-- The device was in the registry before, and is now what the call makes of it. -/
def Changed (r : DeviceRegistry) (op : Op) (id : UInt32) (found : Device) : Prop :=
  ∃ dev, r.byId.lookup id = some dev ∧ found = deviceAfter r id dev op

/-- The device a registry holds was in the registry before, with a record from
which the call made the present one. -/
def From (r : DeviceRegistry) (op : Op) (id : UInt32) (found : Device) : Prop :=
  ∃ dev, r.byId.lookup id = some dev ∧ recordOf found = recordAfter r id (recordOf dev) op

/-- A registration has just added the device. -/
def Added (r : DeviceRegistry) (op : Op) (id : UInt32) (found : Device) : Prop :=
  ∃ now endpoint addr reg, op = .register now endpoint addr reg ∧
    r.byEndpoint.lookup endpoint = none ∧ id = r.nextId ∧ found = .new id endpoint addr reg now

/-- One device was replaced, by the one the call makes of it. -/
private theorem changed_put (held : r.byId.lookup target = some dev)
    (stored : (r.byId.insert target changed).lookup id = some found)
    (here : changed = deviceAfter r target dev op)
    (elsewhere : ∀ dev, id ≠ target → deviceAfter r id dev op = dev) : Changed r op id found := by
  rw [Table.lookup_insert_if] at stored
  by_cases same : id = target
  · subst same
    rw [if_pos rfl] at stored
    exact ⟨dev, held, Option.some.inj stored ▸ here⟩
  · rw [if_neg same] at stored
    exact ⟨found, stored, (elsewhere _ same).symm⟩

private theorem changed_same (stored : r.byId.lookup id = some found)
    (quiet : deviceAfter r id found op = found) : Changed r op id found :=
  ⟨found, stored, quiet.symm⟩

private theorem changed_map {change : UInt32 → Device → Device}
    (stored : (r.byId.mapVals change).lookup id = some found)
    (same : ∀ dev, change id dev = deviceAfter r id dev op) : Changed r op id found := by
  rw [Table.lookup_mapVals] at stored
  obtain ⟨dev, held, rfl⟩ := Option.map_eq_some_iff.mp stored
  exact ⟨dev, held, same dev⟩

/-- The loop of `expire_stale` only takes devices out. -/
private theorem lookup_expireStale {now : Instant} {graceSecs : UInt32}
    (stored : (r.expireStale now graceSecs).2.2.byId.lookup id = some found) :
    r.byId.lookup id = some found := by
  unfold expireStale at stored
  revert stored
  generalize (r.byId.values.filter (·.isExpired now graceSecs)).map (·.id) = expired
  suffices loop : ∀ acc : List String × List Reply × DeviceRegistry,
      (expired.foldl expireOne acc).2.2.byId.lookup id = some found →
      acc.2.2.byId.lookup id = some found from loop ([], [], r)
  induction expired with
  | nil => exact fun acc stored => stored
  | cons first rest ih =>
    rintro ⟨removed, replies, r⟩ stored
    have before := ih _ stored
    simp only [expireOne] at before
    split at before
    · exact before
    · simp only [removeDevice, Table.lookup_erase_if] at before
      split at before
      · cases before
      · exact before

private theorem register_device {now : Instant} {endpoint : String} {addr : SocketAddr}
    {reg : Registration} {result : UInt32 × DeviceRegistry}
    (ran : r.register now endpoint addr reg = some result)
    (stored : result.2.byId.lookup id = some found) :
    Changed r (.register now endpoint addr reg) id found ∨
      Added r (.register now endpoint addr reg) id found := by
  cases known : r.byEndpoint.lookup endpoint with
  | some target =>
    cases held : r.byId.lookup target with
    | none => simp [register, known, held] at ran
    | some dev =>
      -- moving the address index entry leaves the devices alone
      have table : result.2.byId = r.byId.insert target (dev.refresh addr reg now) := by
        simp only [register, known, held, Option.bind_eq_bind, Option.bind_some] at ran
        split at ran <;>
          (simp only [held, Option.bind_some, Option.pure_def, Option.some.injEq] at ran
           subst ran
           rfl)
      rw [table] at stored
      refine Or.inl (changed_put held stored ?_ fun kept other => ?_)
      · simp [deviceAfter, known]
      · have apart : some target ≠ some id := fun same => other (Option.some.inj same).symm
        simp [deviceAfter, known, apart]
  | none =>
    simp only [register, known, Option.some.injEq] at ran
    subst ran
    rw [Table.lookup_insert_if] at stored
    split at stored
    · rename_i new
      cases stored
      exact Or.inr ⟨now, endpoint, addr, reg, rfl, known, new, by rw [new]⟩
    · exact Or.inl (changed_same stored (by simp [deviceAfter, known]))

/-- **Every device after a call is one from before or newly registered**, and
it is what the call makes of it. -/
theorem apply_device (ran : r.apply op = some r') (stored : r'.byId.lookup id = some found) :
    Changed r op id found ∨ Added r op id found := by
  cases op with
  | register now endpoint addr reg =>
    obtain ⟨result, registered, rfl⟩ := Option.map_eq_some_iff.mp ran
    exact register_device registered stored
  | expireStale now graceSecs =>
    cases ran
    exact Or.inl (changed_same (lookup_expireStale stored) rfl)
  | removeByAddr addr =>
    refine Or.inl ?_
    cases ran
    unfold removeByAddr at stored
    split at stored
    · exact changed_same stored rfl
    · split at stored
      · exact changed_same stored rfl
      · simp only [removeDevice, Table.lookup_erase_if] at stored
        split at stored
        · cases stored
        · exact changed_same stored rfl
  | _ =>
    cases apply_rewritten rfl ran with
    | kept same => exact Or.inl (changed_same stored (same id found stored))
    | put held others => exact Or.inl (changed_put held stored rfl fun dev other => others id dev other)
    | map change each => exact Or.inl (changed_map stored fun dev => (each id dev).symm)

/-- What the call makes of a device keeps or changes its record. -/
private theorem recordOf_deviceAfter (id : UInt32) (dev : Device) (op : Op) :
    recordOf (deviceAfter r id dev op) = recordAfter r id (recordOf dev) op := by
  cases op with
  | touch | setDeviceOffline | takePingCandidates | drainPending | placeInFlight | completeInFlight =>
    simp only [deviceAfter, recordAfter]
    split
    · first
        | rfl
        | split <;> rfl
    · rfl
  | register | renewRegistration | mergeDeviceStateByAddr | restoreDeviceState =>
    simp only [deviceAfter, recordAfter]
    split <;> rfl
  | _ => rfl

/-- No call changes who a device is. -/
theorem deviceAfter_identity (id : UInt32) (dev : Device) (op : Op) :
    (deviceAfter r id dev op).id = dev.id ∧ (deviceAfter r id dev op).endpoint = dev.endpoint := by
  have record := recordOf_deviceAfter (r := r) id dev op
  have same : (recordAfter r id (recordOf dev) op).id = dev.id ∧
      (recordAfter r id (recordOf dev) op).endpoint = dev.endpoint := by
    cases op with
    | register | renewRegistration | mergeDeviceStateByAddr | restoreDeviceState =>
      simp only [recordAfter]
      split <;> exact ⟨rfl, rfl⟩
    | _ => exact ⟨rfl, rfl⟩
  exact ⟨(congrArg Record.id record).trans same.1, (congrArg Record.endpoint record).trans same.2⟩

theorem apply_record (ran : r.apply op = some r') (stored : r'.byId.lookup id = some found) :
    From r op id found ∨ Added r op id found := by
  rcases apply_device ran stored with ⟨dev, held, rfl⟩ | added
  · exact Or.inl ⟨dev, held, recordOf_deviceAfter id dev op⟩
  · exact Or.inr added

end Lwm2mServer.DeviceRecords
