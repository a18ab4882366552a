import Lwm2mServer.RecordSteps

/-! A packet from a device shows that the device is there. `handle_packet` says
so to the registry first, for whatever device is indexed at the address the
packet came from, and only then looks what the packet is: a device that
registers again from another address is still found at the old one then. -/
namespace Lwm2mServer.InboundContact
open Library DeviceRegistry DeviceRecords GatewaySteps RecvSteps

/-- The server with whatever `restore` made of the persisted devices. -/
def restoredServer (env : Env) : Machine Server Action where
  start s := ∃ seed serverUri included now snapshots clock,
    s = Server.initial seed serverUri included (DeviceRegistry.new.restore now snapshots) clock
  step := Server.step env

/-- `handle_packet` for one datagram that `Packet::from_bytes` accepts: the
receive loop moves, and no other task. -/
def handling (env : Env) (s : Server) (packet : Packet) (addr : SocketAddr) : Machine Server Choice where
  start t := t = { s with recv := .touch packet addr }
  step t choice := t.recvStep env choice

/-- The endpoint that a packet registers, if it is a registration that
`handle_registration` does not refuse. -/
def registersEndpoint (packet : Packet) : Option String :=
  match packet.type, packet.code with
  | .confirmable, .request .post | .nonConfirmable, .request .post =>
    if postPath packet = .registration ∧ endpointOf packet ≠ "" then some (endpointOf packet) else none
  | _, _ => none

/-- The device is registered at the address: it is the one found there, or the
packet that came from there has just registered it. -/
def RegisteredAt (r : DeviceRegistry) (packet : Packet) (addr : SocketAddr) (dev : Device) : Prop :=
  ∃ id, r.byId.lookup id = some dev ∧ (r.byAddr.lookup addr = some id ∨
    ∃ endpoint ∈ registersEndpoint packet, r.byEndpoint.lookup endpoint = some id)

/-- The device is online, and was last heard from at a given time. -/
structure Present (now : Instant) (dev : Device) : Prop where
  online : dev.online = some true
  offlineSince : dev.offlineSince = none
  lastContact : dev.lastContact = now

/-- A device that is not online registers again from an address at which
another device, or none, is found. -/
def Reappears (s : Server) (packet : Packet) (addr : SocketAddr) : Prop :=
  ∃ endpoint ∈ registersEndpoint packet, ∃ id dev,
    s.devices.byEndpoint.lookup endpoint = some id ∧ s.devices.byAddr.lookup addr ≠ some id ∧
      s.devices.byId.lookup id = some dev ∧ dev.online ≠ some true

/-- No device is online with a time since which it is offline. -/
def Settled (r : DeviceRegistry) : Prop :=
  ∀ id dev, r.byId.lookup id = some dev → dev.online = some true → dev.offlineSince = none

/-- The device found at the address is there. -/
def Contact (r : DeviceRegistry) (now : Instant) (addr : SocketAddr) : Prop :=
  ∀ id dev, r.byAddr.lookup addr = some id → r.byId.lookup id = some dev → Present now dev

/-- The calls that leave alone whether a device is there. -/
def unrelated : Op → Bool
  | .register .. | .touch .. | .setDeviceOffline .. => false
  | _ => true

variable {env : Env} {s t next : Server} {packet : Packet} {addr : SocketAddr} {choice : Choice}
  {r r' : DeviceRegistry} {op : Op} {now : Instant}

/-! ## The registry -/

private theorem present_unrelated (id : UInt32) (dev : Device) (quiet : unrelated op = true) :
    (deviceAfter r id dev op).online = dev.online ∧
      (deviceAfter r id dev op).offlineSince = dev.offlineSince ∧
      (deviceAfter r id dev op).lastContact = dev.lastContact := by
  cases op with
  | register | touch | setDeviceOffline => cases quiet
  | renewRegistration | takePingCandidates | drainPending | placeInFlight | completeInFlight
  | mergeDeviceStateByAddr | restoreDeviceState =>
    simp only [deviceAfter]
    split <;> exact ⟨rfl, rfl, rfl⟩
  | _ => exact ⟨rfl, rfl, rfl⟩

private theorem settled_apply (settled : Settled r) (ran : r.apply op = some r') : Settled r' := by
  intro id found stored online
  rcases apply_device ran stored with ⟨dev, held, rfl⟩ | ⟨now, endpoint, addr, reg, -, -, -, rfl⟩
  · have before := settled id dev held
    by_cases quiet : unrelated op = true
    · obtain ⟨same, since, -⟩ := present_unrelated (r := r) id dev quiet
      rw [since]
      exact before (same ▸ online)
    · cases op with
      | register now endpoint addr reg =>
        simp only [deviceAfter] at online ⊢
        split at online
        · rename_i known
          rw [if_pos known]
          exact before online
        · rename_i other
          rw [if_neg other]
          exact before online
      | touch now addr =>
        simp only [deviceAfter] at online ⊢
        split
        · split
          · rename_i already
            exact before already
          · rfl
        · rename_i other
          rw [if_neg other] at online
          exact before online
      | setDeviceOffline now addr =>
        simp only [deviceAfter] at online ⊢
        split at online
        · cases online
        · rename_i other
          rw [if_neg other]
          exact before online
      | _ => exact absurd rfl quiet
  · rfl

private theorem contact_unrelated (contact : Contact r now addr) (ran : r.apply op = some r')
    (quiet : unrelated op = true) : Contact r' now addr := by
  intro id found index stored
  have other : RegistryIndexes.registers op = none := by
    cases op with
    | register => cases quiet
    | _ => rfl
  rcases apply_device ran stored with ⟨dev, held, rfl⟩ | ⟨_, _, _, _, rfl, -⟩
  · obtain ⟨online, since, last⟩ := present_unrelated (r := r) id dev quiet
    have before := contact id dev (RecordSteps.byAddr_of_apply ran other index) held
    exact ⟨online.trans before.online, since.trans before.offlineSince, last.trans before.lastContact⟩
  · cases quiet

private theorem contact_touch (settled : Settled r) (ran : r.apply (.touch now addr) = some r') :
    Contact r' now addr := by
  intro id found index stored
  have before := RecordSteps.byAddr_of_apply ran rfl index
  rcases apply_device ran stored with ⟨dev, held, rfl⟩ | ⟨_, _, _, _, other, -⟩
  · simp only [deviceAfter, if_pos before]
    split
    · rename_i online
      exact ⟨online, settled id dev held online, rfl⟩
    · exact ⟨rfl, rfl, rfl⟩
  · cases other

private theorem apply_touch {came : Option String} (touched : r.touch now addr = some (came, r')) :
    r.apply (.touch now addr) = some r' := by
  simp only [apply, touched]
  rfl

private theorem touch_indexes {came : Option String} (touched : r.touch now addr = some (came, r')) :
    r'.byEndpoint = r.byEndpoint ∧ r'.byAddr = r.byAddr := by
  unfold touch at touched
  split at touched
  · cases touched
    exact ⟨rfl, rfl⟩
  · obtain ⟨dev, -, touched⟩ := Option.bind_eq_some_iff.mp touched
    dsimp only at touched
    split at touched <;> cases touched <;> exact ⟨rfl, rfl⟩

/-- A registration of a known endpoint: the device is refreshed, and is found at
the address afterwards unless it had that address already. -/
private theorem register_known {endpoint : String} {reg : Registration} {id known : UInt32}
    {dev : Device} (index : r.byEndpoint.lookup endpoint = some known)
    (held : r.byId.lookup known = some dev)
    (registered : r.register now endpoint addr reg = some (id, r')) :
    r'.byEndpoint = r.byEndpoint ∧ r'.byId = r.byId.insert known (dev.refresh addr reg now) ∧
      (r'.byAddr.lookup addr = some known ∨ dev.addr = addr ∧ r'.byAddr = r.byAddr) := by
  simp only [register, index, held, Option.bind_eq_bind, Option.bind_some] at registered
  split at registered
  · simp only [held, Option.bind_some, Option.pure_def, Option.some.injEq] at registered
    cases registered
    refine ⟨rfl, rfl, Or.inl ?_⟩
    simp only [putDevice, Table.lookup_insert_if, if_pos]
  · rename_i same
    simp only [held, Option.bind_some, Option.pure_def, Option.some.injEq] at registered
    cases registered
    exact ⟨rfl, rfl, Or.inr ⟨not_not.mp same, rfl⟩⟩

/-- What a registration leaves at the address it came from. -/
private theorem present_registered_iff {middle : DeviceRegistry} {came : Option String}
    {endpoint : String} {reg : Registration} {id : UInt32} (settled : Settled r)
    (touched : r.touch now addr = some (came, middle))
    (registered : middle.register now endpoint addr reg = some (id, r')) :
    (∀ dev, (∃ id, r'.byId.lookup id = some dev ∧
        (r'.byAddr.lookup addr = some id ∨ r'.byEndpoint.lookup endpoint = some id)) → Present now dev) ↔
      ¬ ∃ id dev, r.byEndpoint.lookup endpoint = some id ∧ r.byAddr.lookup addr ≠ some id ∧
        r.byId.lookup id = some dev ∧ dev.online ≠ some true := by
  obtain ⟨endpoints, addrs⟩ := touch_indexes touched
  have ran := apply_touch touched
  have contact := contact_touch settled ran
  cases index : middle.byEndpoint.lookup endpoint with
  | none =>
    simp only [register, index, Option.some.injEq] at registered
    cases registered
    constructor
    · rintro - ⟨id, dev, known, -⟩
      rw [← endpoints, index] at known
      cases known
    · rintro - dev ⟨id, stored, found⟩
      have new : id = middle.nextId := by
        rcases found with found | found <;>
          (simp only [Table.lookup_insert_if, if_pos, Option.some.injEq] at found
           exact found.symm)
      subst new
      simp only [Table.lookup_insert_if, if_pos, Option.some.injEq] at stored
      subst stored
      exact ⟨rfl, rfl, rfl⟩
  | some known =>
    cases held : middle.byId.lookup known with
    | none => simp [register, index, held] at registered
    | some dev =>
      obtain ⟨sameEndpoints, table, found⟩ := register_known index held registered
      have knownBefore : r.byEndpoint.lookup endpoint = some known := endpoints ▸ index
      rcases apply_device ran held with ⟨before, stored, rfl⟩ | ⟨_, _, _, _, other, -⟩
      swap
      · cases other
      by_cases here : r.byAddr.lookup addr = some known
      · -- the device was found at the address, and `touch` marked it
        have present := contact known _ (addrs ▸ here) held
        have only : ∀ id, (r'.byAddr.lookup addr = some id ∨ r'.byEndpoint.lookup endpoint = some id) →
            id = known := by
          rintro id (at_ | at_)
          · rcases found with moved | ⟨-, same⟩
            · exact Option.some.inj (at_.symm.trans moved)
            · rw [same, addrs, here] at at_
              exact (Option.some.inj at_).symm
          · rw [sameEndpoints, index] at at_
            exact (Option.some.inj at_).symm
        refine iff_of_true ?_ ?_
        · rintro found ⟨id, stored', at_⟩
          cases only id at_
          rw [table, Table.lookup_insert_if, if_pos rfl, Option.some.injEq] at stored'
          subst stored'
          exact ⟨present.online, present.offlineSince, rfl⟩
        · rintro ⟨id, other, known', elsewhere, -⟩
          rw [knownBefore] at known'
          cases known'
          exact elsewhere here
      · have same : deviceAfter r known before (.touch now addr) = before := by
          simp only [deviceAfter, if_neg here]
        rw [same] at held table found
        constructor
        · rintro all ⟨id, dev, known', -, stored', offline⟩
          rw [knownBefore] at known'
          cases known'
          rw [stored] at stored'
          cases stored'
          have refreshed := all (before.refresh addr reg now)
            ⟨known, by rw [table, Table.lookup_insert_if, if_pos rfl],
              Or.inr (by rw [sameEndpoints]; exact index)⟩
          exact offline refreshed.online
        · rintro none_ found' ⟨id, stored', at_⟩
          have online : before.online = some true := by
            by_contra offline
            exact none_ ⟨known, before, knownBefore, here, stored, offline⟩
          rw [table, Table.lookup_insert_if] at stored'
          split at stored'
          · cases stored'
            exact ⟨online, settled known before stored online, rfl⟩
          · rename_i other
            -- another device is found at the address, which is the one that was touched
            refine contact id found' ?_ stored'
            rcases at_ with at_ | at_
            · rcases found with moved | ⟨-, kept⟩
              · exact absurd (Option.some.inj (at_.symm.trans moved)) other
              · rwa [kept] at at_
            · rw [sameEndpoints, index] at at_
              exact absurd (Option.some.inj at_).symm other

/-! ## The receive loop -/

/-- The position is behind the touch and the registration. -/
def past : Recv → Bool
  | .touch .. | .reportOnline .. | .register .. => false
  | _ => true

/-- A position of `handle_registration` behind the registration, or its end. -/
def decidesInclusion : Recv → Bool
  | .respond _ _ (.decideInclusion _) | .askIncluded .. | .dispatchReset .. | .scheduleRemoval ..
  | .idle => true
  | _ => false

/-- How far `handle_packet` is, and what it did to the registry. -/
inductive Handled (env : Env) (s : Server) (packet : Packet) (addr : SocketAddr) (t : Server) : Prop where
  | arrived (position : t.recv = .touch packet addr) (devices : t.devices = s.devices)
  | touched (came : Option String) (touched : s.devices.touch s.clock addr = some (came, t.devices))
      (position : (∃ endpoint, t.recv = .reportOnline endpoint packet addr) ∨
        t.recv = handlePacket env packet addr)
  | registered (endpoint : String) (reg : Registration) (came : Option String)
      (middle : DeviceRegistry) (id : UInt32) (registers : registersEndpoint packet = some endpoint)
      (touched : s.devices.touch s.clock addr = some (came, middle))
      (registered : middle.register s.clock endpoint addr reg = some (id, t.devices))
      (position : decidesInclusion t.recv = true)
  | served (other : registersEndpoint packet = none) (contact : Contact t.devices s.clock addr)
      (position : past t.recv = true)

/-- `handle_packet` goes to the registration exactly for the packets that
register an endpoint. -/
private theorem handlePacket_position (env : Env) (packet : Packet) (addr : SocketAddr) :
    (∃ endpoint reg, registersEndpoint packet = some endpoint ∧
      handlePacket env packet addr = .register endpoint reg packet addr) ∨
    (registersEndpoint packet = none ∧ past (handlePacket env packet addr) = true) := by
  have post : (∃ reg, (postPath packet = .registration ∧ endpointOf packet ≠ "") ∧
        handlePost env packet addr = .register (endpointOf packet) reg packet addr) ∨
      (¬ (postPath packet = .registration ∧ endpointOf packet ≠ "") ∧
        past (handlePost env packet addr) = true) := by
    unfold handlePost
    generalize registrationOf env packet = reg
    generalize endpointOf packet = endpoint
    cases path : postPath packet with
    | registration =>
      dsimp only
      split
      · rename_i empty
        exact Or.inr ⟨fun both => both.2 empty, rfl⟩
      · rename_i named
        exact Or.inl ⟨reg, ⟨rfl, named⟩, rfl⟩
    | bootstrap =>
      refine Or.inr ⟨fun both => (by cases both.1), ?_⟩
      dsimp only
      split <;> rfl
    | _ => exact Or.inr ⟨fun both => (by cases both.1), rfl⟩
  have posted (registers : registersEndpoint packet =
        if postPath packet = .registration ∧ endpointOf packet ≠ "" then some (endpointOf packet) else none)
      (handles : handlePacket env packet addr = handlePost env packet addr) :
      (∃ endpoint reg, registersEndpoint packet = some endpoint ∧
        handlePacket env packet addr = .register endpoint reg packet addr) ∨
      (registersEndpoint packet = none ∧ past (handlePacket env packet addr) = true) := by
    rw [registers, handles]
    rcases post with ⟨reg, named, goes⟩ | ⟨other, goes⟩
    · exact Or.inl ⟨endpointOf packet, reg, if_pos named, goes⟩
    · exact Or.inr ⟨if_neg other, goes⟩
  cases type : packet.type with
  | confirmable | nonConfirmable =>
    cases code : packet.code with
    | request method =>
      cases method with
      | post =>
        refine posted ?_ ?_
        · simp only [registersEndpoint, type, code]
        · simp only [handlePacket, type, code]
      | _ =>
        refine Or.inr ⟨?_, ?_⟩
        · simp only [registersEndpoint, type, code]
        · simp only [handlePacket, type, code]
          rfl
    | _ =>
      refine Or.inr ⟨?_, ?_⟩
      · simp only [registersEndpoint, type, code]
      · simp only [handlePacket, type, code]
        rfl
  | _ =>
    refine Or.inr ⟨?_, ?_⟩
    · simp only [registersEndpoint, type]
    · simp only [handlePacket, type]
      rfl

private theorem past_step (position : past t.recv = true) (ran : t.recvStep env choice = some next) :
    past next.recv = true := by
  have goes := goes_recv ran
  generalize next.recv = recv at goes
  cases goes with
  | online before | registered before =>
    rw [before] at position
    cases position
  | handle before =>
    rcases before with before | ⟨_, before⟩ <;>
      (rw [before] at position
       cases position)
  | @resume response addr rest before =>
    cases rest with
    | report payload =>
      simp only [AfterResponse.resume]
      split <;> rfl
    | _ => rfl
  | inside carries =>
    cases recv with
    | touch | reportOnline | register => cases carries
    | _ => rfl
  | _ => rfl

/-- Behind the touch and the registration no call tells whether a device is
there. -/
private theorem unrelated_call (position : past t.recv = true)
    (called : registryCall t (.recv choice) = some op) : unrelated op = true := by
  cases here : t.recv with
  | touch | reportOnline | register =>
    rw [here] at position
    cases position
  | renew | drain | findReporter | findVersions | mergeReport | deregister | ackInFlight | rstInFlight =>
    simp only [registryCall, here] at called
    cases called
    rfl
  | _ =>
    simp only [registryCall, here] at called
    cases called

private theorem contact_step (contact : Contact t.devices now addr) (position : past t.recv = true)
    (ran : t.recvStep env choice = some next) : Contact next.devices now addr := by
  have stepped : t.step env (.recv choice) = some next := ran
  have made := registry_step stepped
  cases called : registryCall t (.recv choice) with
  | none =>
    rw [called] at made
    exact Option.some.inj made ▸ contact
  | some op =>
    rw [called] at made
    exact contact_unrelated contact made (unrelated_call position called)

/-- The rest of `handle_registration` leaves the registry alone. -/
private theorem decidesInclusion_step (position : decidesInclusion t.recv = true)
    (ran : t.recvStep env choice = some next) :
    next.devices = t.devices ∧ decidesInclusion next.recv = true := by
  cases here : t.recv with
  | respond response addr rest =>
    cases rest with
    | decideInclusion endpoint =>
      simp only [Server.recvStep, here] at ran
      cases ran
      refine ⟨rfl, ?_⟩
      dsimp only
      split <;> rfl
    | _ =>
      rw [here] at position
      cases position
  | askIncluded =>
    simp only [Server.recvStep, here] at ran
    split at ran <;> cases ran <;> exact ⟨rfl, rfl⟩
  | dispatchReset | scheduleRemoval =>
    simp only [Server.recvStep, here] at ran
    cases ran
    exact ⟨rfl, rfl⟩
  | idle =>
    simp only [Server.recvStep, here] at ran
    cases ran
  | _ =>
    rw [here] at position
    cases position

private theorem handled_step (settled : Settled s.devices) (clock : t.clock = s.clock)
    (handled : Handled env s packet addr t) (ran : t.recvStep env choice = some next) :
    Handled env s packet addr next := by
  cases handled with
  | arrived position devices =>
    simp only [Server.recvStep, position] at ran
    obtain ⟨⟨came, after⟩, touched, ran⟩ := Option.bind_eq_some_iff.mp ran
    cases ran
    rw [devices, clock] at touched
    cases came with
    | none => exact .touched none touched (Or.inr rfl)
    | some endpoint => exact .touched _ touched (Or.inl ⟨endpoint, rfl⟩)
  | touched came touched position =>
    rcases position with ⟨endpoint, position⟩ | position
    · simp only [Server.recvStep, position] at ran
      cases ran
      exact .touched came touched (Or.inr rfl)
    · rcases handlePacket_position env packet addr with ⟨endpoint, reg, registers, goes⟩ | ⟨other, past_⟩
      · rw [goes] at position
        simp only [Server.recvStep, position] at ran
        obtain ⟨⟨id, after⟩, registered, ran⟩ := Option.bind_eq_some_iff.mp ran
        cases ran
        rw [clock] at registered
        exact .registered endpoint reg came _ id registers touched registered rfl
      · rw [← position] at past_
        have contact := contact_touch settled (apply_touch touched)
        exact .served other (contact_step contact past_ ran) (past_step past_ ran)
  | registered endpoint reg came middle id registers touched registered position =>
    obtain ⟨same, tail⟩ := decidesInclusion_step position ran
    exact .registered endpoint reg came middle id registers touched (same ▸ registered) tail
  | served other contact position =>
    exact .served other (contact_step contact position ran) (past_step position ran)

private theorem reached_handled (settled : Settled s.devices)
    (handled : (handling env s packet addr).Reaches Machine.always t) :
    t.clock = s.clock ∧ Handled env s packet addr t := by
  refine handled.invariant (fun t => t.clock = s.clock ∧ Handled env s packet addr t) ?_ ?_
  · rintro t rfl
    exact ⟨rfl, .arrived rfl rfl⟩
  · rintro t choice next - ⟨clock, before⟩ - ran
    exact ⟨(recvStep_frame ran).1.trans clock, handled_step settled clock before ran⟩

private theorem settled_restore (snapshots : List DeviceSnapshot) (settled : Settled r) :
    Settled (r.restore now snapshots) := by
  induction snapshots generalizing r with
  | nil => exact settled
  | cons snapshot rest ih =>
    refine ih fun id dev stored online => ?_
    simp only [restoreOne, Table.lookup_insert_if] at stored
    split at stored
    · cases stored
      cases online
    · exact settled id dev stored online

theorem reached_settled (reached : (restoredServer env).Reaches Machine.always s) : Settled s.devices := by
  refine reached.invariant (fun s => Settled s.devices) ?_ fun s action next _ settled _ ran => ?_
  · rintro s ⟨seed, serverUri, included, now, snapshots, clock, rfl⟩
    exact settled_restore snapshots fun id dev stored => by cases stored
  · have made := registry_step ran
    cases called : registryCall s action with
    | none =>
      rw [called] at made
      exact Option.some.inj made ▸ settled
    | some op =>
      rw [called] at made
      exact settled_apply settled made

/-- **A packet brings its device online exactly if the device does not
reappear**: once `handle_packet` is done with a packet, the device registered at
the address it came from is online and was last heard from now, unless the
packet registers a device that is not online and is not the one found there. -/
theorem contact_iff (reached : (restoredServer env).Reaches Machine.always s)
    (handled : (handling env s packet addr).Reaches Machine.always t) (done : t.recv = .idle) :
    (∀ dev, RegisteredAt t.devices packet addr dev → Present s.clock dev) ↔ ¬ Reappears s packet addr := by
  have settled := reached_settled reached
  have unregistered (other : registersEndpoint packet = none)
      (contact : Contact t.devices s.clock addr) :
      (∀ dev, RegisteredAt t.devices packet addr dev → Present s.clock dev) ↔
        ¬ Reappears s packet addr := by
    refine iff_of_true ?_ ?_
    · rintro dev ⟨id, stored, index | ⟨endpoint, registers, -⟩⟩
      · exact contact id dev index stored
      · rw [other] at registers
        cases registers
    · rintro ⟨endpoint, registers, -⟩
      rw [other] at registers
      cases registers
  obtain ⟨-, summary⟩ := reached_handled settled handled
  cases summary with
  | arrived position =>
    rw [position] at done
    cases done
  | touched came touched position =>
    rcases position with ⟨endpoint, position⟩ | position
    · rw [position] at done
      cases done
    · rcases handlePacket_position env packet addr with ⟨endpoint, reg, -, goes⟩ | ⟨other, -⟩
      · rw [position, goes] at done
        cases done
      · exact unregistered other (contact_touch settled (apply_touch touched))
  | registered endpoint reg came middle id registers touched registered =>
    have all := present_registered_iff settled touched registered
    simp only [RegisteredAt, Reappears, registers, Option.mem_def, Option.some.injEq,
      exists_eq_left'] at all ⊢
    exact all
  | served other contact position => exact unregistered other contact

/-! ## A mower that moves -/

/-- Where the mower is reached after its network changed. -/
def movedAddr : SocketAddr := .v6 0xfc000006010000000000000000000002 5683 0 0

/-- Handle a packet without any of the sends failing, and look at the state
after some steps. -/
def handledThen (packet : Packet) (addr : SocketAddr) (steps : Nat) (check : Server → Bool)
    (s : Server) : Bool :=
  ((handling Peer.env s packet addr).exec Machine.always { s with recv := .touch packet addr }
    (List.replicate steps {})).any check

/-- `handle_packet` is done, and the device registered for the endpoint has this
online flag. -/
def doneWith (endpoint : String) (online : Option Bool) (t : Server) : Bool :=
  (match t.recv with
    | .idle => true
    | _ => false) &&
    (((t.devices.byEndpoint.lookup endpoint).bind t.devices.byId.lookup).any fun dev =>
      decide (dev.online = online))

private theorem doneWith_spec {endpoint : String} {online : Option Bool}
    (seen : doneWith endpoint online t = true) :
    t.recv = .idle ∧ ∃ id dev, t.devices.byEndpoint.lookup endpoint = some id ∧
      t.devices.byId.lookup id = some dev ∧ dev.online = online := by
  simp only [doneWith, Bool.and_eq_true, Option.any_eq_true, Option.bind_eq_some_iff,
    decide_eq_true_eq] at seen
  obtain ⟨idle, dev, ⟨id, index, stored⟩, flag⟩ := seen
  refine ⟨?_, id, dev, index, stored, flag⟩
  split at idle
  · assumption
  · cases idle

private theorem start_server : (restoredServer Peer.env).start Peer.server :=
  ⟨0, some "coaps://gateway", [], 0, [], 0, rfl⟩

/-- A registration from an address where nobody is found. -/
theorem newDevice_present : ∃ s t, (restoredServer Peer.env).Reaches Machine.always s ∧
    (handling Peer.env s (Peer.post "rd" "mower") Peer.addr).Reaches Machine.always t ∧
    t.recv = .idle ∧ (∀ dev, RegisteredAt t.devices (Peer.post "rd" "mower") Peer.addr dev →
      Present s.clock dev) ∧ ∃ dev, RegisteredAt t.devices (Peer.post "rd" "mower") Peer.addr dev := by
  obtain ⟨s, -, reached, seen⟩ := Machine.exec_reaches (restoredServer Peer.env) Machine.always
    Peer.server [] (fun s => handledThen (Peer.post "rd" "mower") Peer.addr 6 (doneWith "mower" (some true)) s
      && decide (s.devices.byEndpoint.lookup "mower" = none)) start_server (by decide +kernel)
  obtain ⟨seen, unknown⟩ := Bool.and_eq_true_iff.mp seen
  obtain ⟨t, -, handled, seen⟩ := Machine.exec_reaches
    (handling Peer.env s (Peer.post "rd" "mower") Peer.addr) Machine.always _ _ _ rfl seen
  obtain ⟨idle, id, dev, index, stored, -⟩ := doneWith_spec seen
  have registers : registersEndpoint (Peer.post "rd" "mower") = some "mower" := by decide
  refine ⟨s, t, reached, handled, idle, (contact_iff reached handled idle).mpr ?_, dev, id, stored,
    Or.inr ⟨"mower", registers, index⟩⟩
  rintro ⟨endpoint, named, id, dev, known, -⟩
  rw [registers] at named
  cases named
  rw [of_decide_eq_true unknown] at known
  cases known

/-- The mower registers, is marked offline and registers again from another
address: it stays offline. -/
theorem movedDevice_absent : ∃ s t, (restoredServer Peer.env).Reaches Machine.always s ∧
    (handling Peer.env s (Peer.post "rd" "mower") movedAddr).Reaches Machine.always t ∧
    t.recv = .idle ∧ ¬ ∀ dev, RegisteredAt t.devices (Peer.post "rd" "mower") movedAddr dev →
      Present s.clock dev := by
  obtain ⟨s, -, reached, seen⟩ := Machine.exec_reaches (restoredServer Peer.env) Machine.always
    Peer.server (Peer.deliver (Peer.post "rd" "mower") 6 ++ [.client (.setDeviceOffline Peer.addr)])
    (handledThen (Peer.post "rd" "mower") movedAddr 6 (doneWith "mower" (some false)))
    start_server (by decide +kernel)
  obtain ⟨t, -, handled, seen⟩ := Machine.exec_reaches
    (handling Peer.env s (Peer.post "rd" "mower") movedAddr) Machine.always _ _ _ rfl seen
  obtain ⟨idle, id, dev, index, stored, offline⟩ := doneWith_spec seen
  refine ⟨s, t, reached, handled, idle, fun all => ?_⟩
  have present := all dev ⟨id, stored, Or.inr ⟨"mower", by decide, index⟩⟩
  rw [present.online] at offline
  cases offline

end Lwm2mServer.InboundContact
