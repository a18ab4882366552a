import Lwm2mServer.DeviceRecords
import Lwm2mServer.GatewaySteps
import Lwm2mServer.RecvSteps

/-! What a step of the server does to the record of a device. Only the receive
loop registers devices, renews their registrations and merges their reports. -/
namespace Lwm2mServer.RecordSteps
open Library DeviceRegistry DeviceRecords GatewaySteps RecvSteps

/-- How the record of a device comes out of a step. -/
inductive RecordMove (s : Server) (action : Action) (id : UInt32) (found : Device) : Prop where
  | same (stored : s.devices.byId.lookup id = some dev) (kept : recordOf found = recordOf dev)
  | added (here : action = .recv choice) (position : s.recv = .register endpoint reg packet addr)
      (unknown : s.devices.byEndpoint.lookup endpoint = none)
      (new : found = .new id endpoint addr reg s.clock)
  | registered (here : action = .recv choice) (position : s.recv = .register endpoint reg packet addr)
      (index : s.devices.byEndpoint.lookup endpoint = some id)
      (stored : s.devices.byId.lookup id = some dev)
      (kept : recordOf found = { recordOf dev with since := s.clock, lifetime := reg.lifetime })
  | renewed (here : action = .recv choice) (position : s.recv = .renew newLifetime addr)
      (index : s.devices.byAddr.lookup addr = some id)
      (stored : s.devices.byId.lookup id = some dev)
      (kept : recordOf found =
        { recordOf dev with since := s.clock, lifetime := newLifetime.getD dev.lifetime })
  | merged (here : action = .recv choice) (position : s.recv = .mergeReport report addr)
      (index : s.devices.byAddr.lookup addr = some id)
      (stored : s.devices.byId.lookup id = some dev)
      (kept : recordOf found = { recordOf dev with state := dev.state.merge report })

variable {env : Env} {s next : Server} {action : Action} {op : Op} {id : UInt32} {found : Device}
  {r r' : DeviceRegistry} {now : Instant}

/-- Only the receive loop makes a call that changes a record. -/
private theorem quiet_call (id : UInt32) (called : registryCall s action = some op)
    (elsewhere : ∀ choice, action ≠ .recv choice) (kept : Record) :
    recordAfter s.devices id kept op = kept := by
  cases action with
  | recv choice => exact absurd rfl (elsewhere choice)
  | exclusion i =>
    obtain ⟨task, -, called⟩ := Option.bind_eq_some_iff.mp called
    split at called <;> cases called <;> rfl
  | removal i =>
    obtain ⟨task, -, called⟩ := Option.map_eq_some_iff.mp called
    cases called
    rfl
  | housekeeping =>
    simp only [registryCall] at called
    split at called <;> cases called <;> rfl
  | client call => cases call <;> cases called <;> rfl
  | _ => cases called

private theorem from_recv {choice : Choice} (called : registryCall s (.recv choice) = some op)
    (before : From s.devices op id found) : RecordMove s (.recv choice) id found := by
  obtain ⟨dev, stored, kept⟩ := before
  have silent (quiet : recordAfter s.devices id (recordOf dev) op = recordOf dev) :
      RecordMove s (.recv choice) id found := .same stored (kept.trans quiet)
  cases position : s.recv with
  | register endpoint reg packet addr =>
    simp only [registryCall, position] at called
    cases called
    simp only [recordAfter] at kept
    split at kept
    · rename_i index
      exact .registered rfl position index stored kept
    · exact .same stored kept
  | renew newLifetime addr =>
    simp only [registryCall, position] at called
    cases called
    simp only [recordAfter] at kept
    split at kept
    · rename_i index
      exact .renewed rfl position index stored kept
    · exact .same stored kept
  | mergeReport report addr =>
    simp only [registryCall, position] at called
    cases called
    simp only [recordAfter] at kept
    split at kept
    · rename_i index
      exact .merged rfl position index stored kept
    · exact .same stored kept
  | touch | drain | findReporter | findVersions | deregister | ackInFlight | rstInFlight =>
    simp only [registryCall, position] at called
    cases called
    exact silent rfl
  | _ =>
    simp only [registryCall, position] at called
    cases called

/-- **Every device after a step has a record the step made.** -/
theorem record_move (ran : s.step env action = some next)
    (stored : next.devices.byId.lookup id = some found) : RecordMove s action id found := by
  have made := registry_step ran
  cases called : registryCall s action with
  | none =>
    rw [called] at made
    have same : s.devices = next.devices := Option.some.inj made
    exact .same (same ▸ stored) rfl
  | some op =>
    rw [called] at made
    by_cases recv : ∃ choice, action = .recv choice
    · obtain ⟨choice, rfl⟩ := recv
      rcases apply_record made stored with before | ⟨now, endpoint, addr, reg, rfl, unknown, rfl, new⟩
      · exact from_recv called before
      · cases position : s.recv with
        | register e r p a =>
          simp only [registryCall, position] at called
          cases called
          exact .added rfl position unknown new
        | _ =>
          simp only [registryCall, position] at called
          cases called
    · have quiet := quiet_call id called (fun choice same => recv ⟨choice, same⟩)
      rcases apply_record made stored with ⟨dev, held, kept⟩ | ⟨now, endpoint, addr, reg, rfl, -⟩
      · exact .same held (kept.trans (quiet _))
      · -- a registration is made by the receive loop only
        cases action with
        | recv choice => exact absurd ⟨choice, rfl⟩ recv
        | exclusion i =>
          obtain ⟨task, -, called⟩ := Option.bind_eq_some_iff.mp called
          split at called <;> cases called
        | removal i =>
          obtain ⟨task, -, called⟩ := Option.map_eq_some_iff.mp called
          cases called
        | housekeeping =>
          simp only [registryCall] at called
          split at called <;> cases called
        | client call => cases call <;> cases called
        | _ => cases called

/-! ## The address index -/

theorem byAddr_expireStale {probe : SocketAddr} {id : UInt32} {graceSecs : UInt32}
    (index : (r.expireStale now graceSecs).2.2.byAddr.lookup probe = some id) :
    r.byAddr.lookup probe = some id := by
  unfold expireStale at index
  revert index
  generalize (r.byId.values.filter (·.isExpired now graceSecs)).map (·.id) = expired
  suffices loop : ∀ acc : List String × List Reply × DeviceRegistry,
      (expired.foldl expireOne acc).2.2.byAddr.lookup probe = some id →
      acc.2.2.byAddr.lookup probe = some id from loop ([], [], r)
  induction expired with
  | nil => exact fun acc index => index
  | cons first rest ih =>
    rintro ⟨removed, replies, r⟩ index
    have before := ih _ index
    simp only [expireOne] at before
    split at before
    · exact before
    · simp only [removeDevice, Table.lookup_erase_if] at before
      split at before
      · cases before
      · exact before

/-- The calls other than a registration take entries out of the address index
at most. -/
theorem byAddr_of_apply {probe : SocketAddr} {id : UInt32} (ran : r.apply op = some r')
    (other : RegistryIndexes.registers op = none) (index : r'.byAddr.lookup probe = some id) :
    r.byAddr.lookup probe = some id := by
  cases op with
  | register now endpoint addr reg => cases other
  | removeByAddr addr =>
    cases ran
    unfold removeByAddr at index
    split at index
    · exact index
    · split at index
      · exact index
      · simp only [removeDevice, Table.lookup_erase_if] at index
        split at index
        · cases index
        · exact index
  | expireStale now graceSecs =>
    cases ran
    exact byAddr_expireStale index
  | _ => cases apply_rewritten rfl ran <;> exact index

/-- Addresses are indexed by the receive loop only. -/
theorem byAddr_move {addr : SocketAddr} (ran : s.step env action = some next)
    (elsewhere : ∀ choice, action ≠ .recv choice)
    (index : next.devices.byAddr.lookup addr = some id) : s.devices.byAddr.lookup addr = some id := by
  have made := registry_step ran
  cases called : registryCall s action with
  | none =>
    rw [called] at made
    rw [Option.some.inj made]
    exact index
  | some op =>
    rw [called] at made
    refine byAddr_of_apply made ?_ index
    cases action with
    | recv choice => exact absurd rfl (elsewhere choice)
    | exclusion i =>
      obtain ⟨task, -, called⟩ := Option.bind_eq_some_iff.mp called
      split at called <;> cases called <;> rfl
    | removal i =>
      obtain ⟨task, -, called⟩ := Option.map_eq_some_iff.mp called
      cases called
      rfl
    | housekeeping =>
      simp only [registryCall] at called
      split at called <;> cases called <;> rfl
    | client call => cases call <;> cases called <;> rfl
    | _ => cases called

end Lwm2mServer.RecordSteps
