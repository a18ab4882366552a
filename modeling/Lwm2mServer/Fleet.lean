import Lwm2mServer.DeviceRecords
import Lwm2mServer.RegistryIndexes

/-! What the device registry is for. A fleet has no ids to look up and no maps
to keep in step: every endpoint has at most one device, and every address is at
most one endpoint's. The registry with its three maps answers each call as the
fleet does, so what its callers can tell of it they can tell of a fleet. -/
namespace Lwm2mServer
open Library DeviceRegistry DeviceRecords RegistryIndexes

/-! ## The fleet -/

/-- The devices by endpoint, and whose packets those from an address are taken
to be. -/
structure Fleet where
  member : String → Option Device
  sender : SocketAddr → Option String
  named : ∀ endpoint dev, member endpoint = some dev → dev.endpoint = endpoint
  placed : ∀ addr endpoint, sender addr = some endpoint →
    ∃ dev, member endpoint = some dev ∧ dev.addr = addr
  apart : ∀ endpoint other dev dev', member endpoint = some dev → member other = some dev' →
    dev.id = dev'.id → endpoint = other

namespace Fleet
variable (f : Fleet)

def Has (dev : Device) : Prop := f.member dev.endpoint = some dev

/-- The device that packets from an address are taken to be from. -/
def find (addr : SocketAddr) : Option Device := (f.sender addr).bind f.member

/-- The devices with a property, each of them once. -/
def Lists (p : Device → Bool) (devs : List Device) : Prop :=
  devs.Nodup ∧ ∀ dev, dev ∈ devs ↔ f.Has dev ∧ p dev = true

variable {f} {endpoint : String} {addr : SocketAddr} {dev : Device}

theorem has_of_member (member : f.member endpoint = some dev) : f.Has dev := by
  rw [Has, f.named _ _ member, member]

theorem addr_of_sender (sender : f.sender addr = some dev.endpoint) (has : f.Has dev) :
    dev.addr = addr := by
  obtain ⟨dev', member, here⟩ := f.placed _ _ sender
  rw [Has, member] at has
  cases has
  exact here

variable (f)

/-- Devices change, but not who they are. -/
def rewrite (change : Device → Device)
    (same : ∀ dev, f.Has dev → SameIdentity dev (change dev)) : Fleet where
  member endpoint := (f.member endpoint).map change
  sender := f.sender
  named := by
    intro endpoint changed member
    obtain ⟨dev, before, rfl⟩ := Option.map_eq_some_iff.mp member
    rw [(same dev (has_of_member before)).2.1]
    exact f.named _ _ before
  placed := by
    intro addr endpoint sender
    obtain ⟨dev, before, here⟩ := f.placed _ _ sender
    refine ⟨change dev, by rw [before]; rfl, ?_⟩
    rw [(same dev (has_of_member before)).2.2, here]
  apart := by
    intro endpoint other changed changed' member member' ids
    obtain ⟨dev, before, rfl⟩ := Option.map_eq_some_iff.mp member
    obtain ⟨dev', before', rfl⟩ := Option.map_eq_some_iff.mp member'
    rw [(same dev (has_of_member before)).1, (same dev' (has_of_member before')).1] at ids
    exact f.apart _ _ _ _ before before' ids

/-- A device registers anew. If it has moved, packets from where it was are
nobody's any longer, even if they were another's. -/
def moved (known : f.member endpoint = some dev) (addr : SocketAddr) (reg : Registration)
    (now : Instant) : Fleet where
  member name := if name = endpoint then some (dev.refresh addr reg now) else f.member name
  sender from_ :=
    if dev.addr = addr then f.sender from_
    else if from_ = addr then some endpoint
    else if from_ = dev.addr then none
    else f.sender from_
  named := by
    intro name held member
    split at member
    · rename_i mine
      cases member
      exact (f.named _ _ known).trans mine.symm
    · exact f.named _ _ member
  placed := by
    intro from_ name sender
    by_cases mine : name = endpoint
    · rw [if_pos mine]
      refine ⟨_, rfl, ?_⟩
      subst mine
      have before : f.sender from_ = some name → dev.addr = from_ := by
        intro sender
        obtain ⟨dev', member, here⟩ := f.placed _ _ sender
        cases known.symm.trans member
        exact here
      change addr = from_
      split at sender
      · rename_i here
        exact here.symm.trans (before sender)
      · split at sender
        · rename_i here
          exact here.symm
        · split at sender
          · cases sender
          · rename_i elsewhere
            exact absurd (before sender).symm elsewhere
    · rw [if_neg mine]
      split at sender
      · exact f.placed _ _ sender
      · split at sender
        · exact absurd (Option.some.inj sender).symm mine
        · split at sender
          · cases sender
          · exact f.placed _ _ sender
  apart := by
    intro name other held held' member member' ids
    have before : ∀ {name held}, (if name = endpoint then some (dev.refresh addr reg now)
        else f.member name) = some held → ∃ dev', f.member name = some dev' ∧ dev'.id = held.id := by
      intro name held member
      split at member
      · rename_i mine
        cases member
        exact ⟨dev, mine ▸ known, rfl⟩
      · exact ⟨held, member, rfl⟩
    obtain ⟨first, member, same⟩ := before member
    obtain ⟨second, member', same'⟩ := before member'
    exact f.apart _ _ _ _ member member' (same.trans (ids.trans same'.symm))

/-- A device joins, with an id of its own, and takes over its address. -/
def joined (dev : Device) (unknown : f.member dev.endpoint = none)
    (free : ∀ other, f.Has other → other.id ≠ dev.id) : Fleet where
  member endpoint := if endpoint = dev.endpoint then some dev else f.member endpoint
  sender addr := if addr = dev.addr then some dev.endpoint else f.sender addr
  named := by
    intro endpoint held member
    split at member
    · rename_i mine
      cases member
      exact mine.symm
    · exact f.named _ _ member
  placed := by
    intro addr endpoint sender
    split at sender
    · rename_i here
      cases sender
      exact ⟨dev, if_pos rfl, here.symm⟩
    · obtain ⟨held, member, here⟩ := f.placed _ _ sender
      have other : endpoint ≠ dev.endpoint := by
        rintro rfl
        rw [unknown] at member
        cases member
      exact ⟨held, by rw [if_neg other, member], here⟩
  apart := by
    intro endpoint other held held' member member' ids
    split at member
    · rename_i mine
      cases member
      split at member'
      · rename_i mine'
        exact mine.trans mine'.symm
      · exact absurd ids.symm (free held' (has_of_member member'))
    · split at member'
      · cases member'
        exact absurd ids (free held (has_of_member member))
      · exact f.apart _ _ _ _ member member' ids

open Classical in
/-- Devices leave. Packets from where they were are nobody's any longer. -/
noncomputable def without (gone : Device → Bool) : Fleet where
  member endpoint := (f.member endpoint).filter fun dev => !gone dev
  sender addr := if ∃ dev, f.Has dev ∧ gone dev ∧ dev.addr = addr then none else f.sender addr
  named := by
    intro endpoint dev member
    exact f.named _ _ (Option.filter_eq_some_iff.mp member).1
  placed := by
    intro addr endpoint sender
    split at sender
    · cases sender
    · rename_i stays
      obtain ⟨dev, member, here⟩ := f.placed _ _ sender
      refine ⟨dev, ?_, here⟩
      refine Option.filter_eq_some_iff.mpr ⟨member, ?_⟩
      by_contra gone_
      simp only [Bool.not_eq_true', Bool.not_eq_false] at gone_
      exact stays ⟨dev, has_of_member member, gone_, here⟩
  apart := by
    intro endpoint other dev dev' member member' ids
    exact f.apart _ _ _ _ (Option.filter_eq_some_iff.mp member).1
      (Option.filter_eq_some_iff.mp member').1 ids

variable {f}

theorem without_sender_none {gone : Device → Bool}
    (leaves : ∃ dev, f.Has dev ∧ gone dev ∧ dev.addr = addr) : (f.without gone).sender addr = none :=
  if_pos leaves

theorem without_sender {gone : Device → Bool}
    (stays : ¬∃ dev, f.Has dev ∧ gone dev ∧ dev.addr = addr) :
    (f.without gone).sender addr = f.sender addr :=
  if_neg stays

end Fleet

/-! ## Calls -/

namespace DeviceRegistry

/-- What a call returns, with what is sent on response channels. -/
inductive Returned where
  | done
  | id (id : UInt32)
  | endpoint (endpoint : Option String)
  | candidates (candidates : List (String × SocketAddr))
  | operations (ops : List PendingOperation)
  | inFlight (there : Bool)
  | operation (op : Option PendingOperation)
  | expired (endpoints : List String) (replies : List Reply)
  | removed (endpoint : Option String) (replies : List Reply)
  | replies (replies : List Reply)
  | located (found : Option (SocketAddr × UInt32 × Table UInt32 String))
  | versions (found : Option (Table UInt32 String))
  | merged (state : Json)
  | state (found : Option (Json × Option Bool))

/-- The answer to a call with the registry after it; `none` when the call
panics. -/
def perform (r : DeviceRegistry) : Op → Option (Returned × DeviceRegistry)
  | .register now endpoint addr reg =>
    (r.register now endpoint addr reg).map fun result => (.id result.1, result.2)
  | .renewRegistration now addr newLifetime => some (.done, r.renewRegistration now addr newLifetime)
  | .touch now addr => (r.touch now addr).map fun result => (.endpoint result.1, result.2)
  | .setDeviceOffline now addr =>
    let result := r.setDeviceOffline now addr
    some (.endpoint result.1, result.2)
  | .takePingCandidates now offlineInterval onlineInterval offlineMaxDuration =>
    let result := r.takePingCandidates now offlineInterval onlineInterval offlineMaxDuration
    some (.candidates result.1, result.2)
  | .drainPending addr => (r.drainPending addr).map fun result => (.operations result.1, result.2)
  | .placeInFlight addr token op => some (.done, r.placeInFlight addr token op)
  | .isInFlight addr token => (r.isInFlight addr token).map fun there => (.inFlight there, r)
  | .completeInFlight addr token =>
    let result := r.completeInFlight addr token
    some (.operation result.1, result.2)
  | .expireStale now graceSecs =>
    let result := r.expireStale now graceSecs
    some (.expired result.1 result.2.1, result.2.2)
  | .endpointByAddr addr => (r.endpointByAddr addr).map fun endpoint => (.endpoint endpoint, r)
  | .addrAndIdByEndpoint endpoint =>
    (r.addrAndIdByEndpoint endpoint).map fun found => (.located found, r)
  | .objectVersionsByAddr addr =>
    (r.objectVersionsByAddr addr).map fun found => (.versions found, r)
  | .timeoutInFlight now maxSecs =>
    let result := r.timeoutInFlight now maxSecs
    some (.replies result.1, result.2)
  | .mergeDeviceStateByAddr addr newState =>
    (r.mergeDeviceStateByAddr addr newState).map fun result => (.merged result.1, result.2)
  | .removeByAddr addr =>
    let result := r.removeByAddr addr
    some (.removed result.1 result.2.1, result.2.2)
  | .deviceStateByEndpoint endpoint =>
    (r.deviceStateByEndpoint endpoint).map fun found => (.state found, r)
  | .restoreDeviceState endpoint state => some (.done, r.restoreDeviceState endpoint state)

theorem perform_apply (r : DeviceRegistry) (op : Op) : (r.perform op).map (·.2) = r.apply op := by
  cases op with
  | renewRegistration | setDeviceOffline | takePingCandidates | placeInFlight | completeInFlight
  | expireStale | timeoutInFlight | removeByAddr | restoreDeviceState => rfl
  | _ => exact Option.map_map ..

end DeviceRegistry

/-! ## What a fleet does -/

namespace Fleet
variable (f : Fleet)

/-- Whom a call is about that nobody joins or leaves by. -/
def Concerns (dev : Device) : Op → Prop
  | .renewRegistration _ addr _ | .touch _ addr | .setDeviceOffline _ addr | .drainPending addr
  | .placeInFlight addr _ _ | .completeInFlight addr _ | .mergeDeviceStateByAddr addr _ =>
    f.sender addr = some dev.endpoint
  | .restoreDeviceState endpoint _ => dev.endpoint = endpoint
  | .takePingCandidates .. | .timeoutInFlight .. => True
  | _ => False

/-- What it makes of them. -/
def change (dev : Device) : Op → Device
  | .renewRegistration now _ newLifetime =>
    { dev with lastRegisteredAt := now, lifetime := newLifetime.getD dev.lifetime }
  | .touch now _ =>
    if dev.online = some true then { dev with lastContact := now }
    else { dev with lastContact := now, online := some true, offlineSince := none }
  | .setDeviceOffline now _ =>
    if dev.online = some true then { dev with online := some false, offlineSince := some now }
    else dev
  | .takePingCandidates now offlineInterval onlineInterval offlineMaxDuration =>
    if needsPing now offlineInterval onlineInterval offlineMaxDuration dev then
      { dev with lastPingAttempt := some now }
    else dev
  | .drainPending _ => { dev with pendingOps := [] }
  | .placeInFlight _ token op => { dev with inFlight := dev.inFlight.insert token op }
  | .completeInFlight _ token => { dev with inFlight := dev.inFlight.erase token }
  | .timeoutInFlight now maxSecs =>
    { dev with inFlight := dev.inFlight.filterVals fun _ op => !timedOut now maxSecs op }
  | .mergeDeviceStateByAddr _ newState => { dev with state := dev.state.merge newState }
  | .restoreDeviceState _ state => { dev with state }
  | _ => dev

/-- What a call answers that nobody joins or leaves by. -/
def Answers : Op → Returned → Prop
  | .renewRegistration .., answer | .placeInFlight .., answer | .restoreDeviceState .., answer =>
    answer = .done
  | .touch _ addr, answer =>
    answer = .endpoint (((f.find addr).filter (·.online ≠ some true)).map (·.endpoint))
  | .setDeviceOffline _ addr, answer =>
    answer = .endpoint (((f.find addr).filter (·.online = some true)).map (·.endpoint))
  | .takePingCandidates now offlineInterval onlineInterval offlineMaxDuration, answer =>
    ∃ devs, f.Lists (needsPing now offlineInterval onlineInterval offlineMaxDuration) devs ∧
      answer = .candidates (devs.map fun dev => (dev.endpoint, dev.addr))
  | .drainPending addr, answer => answer = .operations ((f.find addr).elim [] (·.pendingOps))
  | .isInFlight addr token, answer =>
    answer = .inFlight ((f.find addr).any fun dev => (dev.inFlight.lookup token).isSome)
  | .completeInFlight addr token, answer =>
    answer = .operation ((f.find addr).bind (·.inFlight.lookup token))
  | .endpointByAddr addr, answer => answer = .endpoint (f.sender addr)
  | .addrAndIdByEndpoint endpoint, answer =>
    answer = .located ((f.member endpoint).map fun dev => (dev.addr, dev.id, dev.objectVersions))
  | .objectVersionsByAddr addr, answer => answer = .versions ((f.find addr).map (·.objectVersions))
  | .timeoutInFlight now maxSecs, answer =>
    ∃ devs, f.Lists (fun _ => true) devs ∧ answer = .replies (devs.flatMap fun dev =>
      (dev.inFlight.values.filter (timedOut now maxSecs)).map fun op => (op.responseTx, .error .timeout))
  | .mergeDeviceStateByAddr addr newState, answer =>
    answer = .merged ((f.find addr).elim newState fun dev => dev.state.merge newState)
  | .deviceStateByEndpoint endpoint, answer =>
    answer = .state ((f.member endpoint).map fun dev => (dev.state, dev.online))
  | .register .., _ | .expireStale .., _ | .removeByAddr _, _ => False

theorem change_same (dev : Device) (op : Op) : SameIdentity dev (change dev op) := by
  cases op with
  | touch | setDeviceOffline | takePingCandidates =>
    simp only [change]
    split <;> exact ⟨rfl, rfl, rfl⟩
  | _ => exact ⟨rfl, rfl, rfl⟩

open Classical in
noncomputable def after (op : Op) (dev : Device) : Device :=
  if f.Concerns dev op then change dev op else dev

theorem after_same (op : Op) (dev : Device) : SameIdentity dev (f.after op dev) := by
  unfold after
  split
  · exact change_same dev op
  · exact .refl dev

/-- One call. Which id is given to a device that joins, and in which order
devices are gone through, is left open. -/
inductive Step (f : Fleet) : Op → Returned → Fleet → Prop where
  | stay (stays : rewrites op = true) (answers : f.Answers op answer) :
      Step f op answer (f.rewrite (f.after op) fun dev _ => f.after_same op dev)
  | renew (known : f.member endpoint = some dev) :
      Step f (.register now endpoint addr reg) (.id dev.id) (f.moved known addr reg now)
  | join {id : UInt32} (unknown : f.member endpoint = none) (free : ∀ other, f.Has other → other.id ≠ id) :
      Step f (.register now endpoint addr reg) (.id id)
        (f.joined (Device.new id endpoint addr reg now) unknown free)
  | expire (gone : f.Lists (·.isExpired now graceSecs) devs) :
      Step f (.expireStale now graceSecs)
        (.expired (devs.map (·.endpoint)) (devs.flatMap timeoutReplies))
        (f.without (·.isExpired now graceSecs))
  | remove :
      Step f (.removeByAddr addr)
        (.removed ((f.find addr).map (·.endpoint)) ((f.find addr).elim [] timeoutReplies))
        (f.without fun dev => f.sender addr = some dev.endpoint)

end Fleet
end Lwm2mServer
