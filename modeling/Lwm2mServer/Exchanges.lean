import Lwm2mServer.GatewaySteps
import Lwm2mServer.RecvSteps

/-! The exchanges the gateway waits on, and whose acknowledgement ends them.
`handle_ack` looks an acknowledgement up four times, in a fixed order: in
`write_acks`, `by_token` and `block_acks` by its token alone, and among the
operations in flight by its source address and its token. So an
acknowledgement from a stranger ends no operation, but it does end a write
step, a GET /0/0 session or the wait of a block-wise write whose token it
carries. -/
namespace Lwm2mServer.Exchanges
open Library DeviceRegistry DeviceSteps GatewaySteps RecvSteps RegistryIndexes

inductive Exchange where
  /-- The step a write phase waits on. -/
  | write (phase : Nat)
  /-- A GET /0/0. -/
  | session (token : Token)
  /-- The block a block-wise write waits on. -/
  | block (task : Nat)
  | operation (device : UInt32) (token : Token)

/-- The token a write phase waits on, with the channel it waits on. -/
def awaiting : PhasePc → Option (Token × Nat)
  | .send _ token channel _ _ | .wait _ token channel _ _ => some (token, channel)
  | _ => none

/-- The channel a block-wise write waits on. -/
def listening : BlockPc → Option Nat
  | .send _ channel | .wait _ channel => some channel
  | _ => none

/-- The exchange under a token whose answer would go to that channel. -/
def keyed (acks : Table Token Nat) (peer : SocketAddr) (at_ : Token × Nat) :
    Option (Token × SocketAddr) :=
  if acks.lookup at_.1 = some at_.2 then some (at_.1, peer) else none

/-- The token of an exchange that is pending and the address it is with: that
its request is sent to, or for an operation the present one of its device. -/
def pending (g : Gateway) : Exchange → Option (Token × SocketAddr)
  | .write i => (g.server.phases.get? i).bind fun task =>
    (awaiting task.pc).bind (keyed g.server.boot.writeAcks task.addr)
  | .session token => (g.server.boot.byToken.lookup token).bind fun _ =>
    (g.asked.lookup token).map fun peer => (token, peer)
  | .block i => (g.blockWrites.get? i).bind fun task =>
    (listening task.pc).bind fun channel => keyed g.server.blockAcks task.addr (task.token, channel)
  | .operation id token => (g.server.devices.byId.lookup id).bind fun dev =>
    (dev.inFlight.lookup token).map fun _ => (token, dev.addr)

/-- The packet `handle_ack` is looking up. -/
def acking : Recv → Option Packet
  | .ackWrite packet _ | .ackPending packet _ | .ackComplete packet | .ackBlock packet _
  | .ackInFlight packet _ => some packet
  | _ => none

/-- The exchanges `handle_ack` is about to search by token alone. -/
def searched : Recv → Exchange → Bool
  | .ackWrite .., .write _ | .ackComplete _, .session _ | .ackBlock .., .block _ => true
  | _, _ => false

/-- Only exchanges with this address are ended; all others are left as they
are. -/
def OwnPeer (g next : Gateway) (source : SocketAddr) : Prop :=
  ∀ x, pending next x ≠ pending g x → ∃ token, pending g x = some (token, source)

/-- No exchange with another address is pending under this token where
`handle_ack` searches by the token alone. -/
def TokenOwned (g : Gateway) (token : Token) (source : SocketAddr) : Prop :=
  ∀ x peer, searched g.server.recv x = true → pending g x = some (token, peer) → peer = source

variable {env : Env} {s next : Server} {g g' : Gateway} {packet : Packet} {choice : Choice}

/-! ## The datagram being handled -/

/-- The positions from `touch` to the end of the lookups are about the datagram
taken last. -/
def Handling (handled : Option (Packet × SocketAddr)) : Recv → Prop
  | .touch packet addr | .reportOnline _ packet addr | .ackWrite packet addr
  | .ackPending packet addr | .ackBlock packet addr | .ackInFlight packet addr =>
    handled = some (packet, addr)
  | .ackComplete packet => ∃ addr, handled = some (packet, addr)
  | _ => True

theorem handling_handlePacket {handled : Option (Packet × SocketAddr)} {addr : SocketAddr}
    (same : handled = some (packet, addr)) : Handling handled (handlePacket env packet addr) := by
  exact handlePacket_cases (Handling handled) env packet addr trivial (fun _ _ _ => trivial)
    (fun _ => trivial) (fun _ _ => trivial) same trivial

theorem handling_resume {handled : Option (Packet × SocketAddr)} (addr : SocketAddr)
    (rest : AfterResponse) : Handling handled (rest.resume addr) := by
  cases rest with
  | report payload =>
    simp only [AfterResponse.resume]
    split <;> exact trivial
  | _ => exact trivial

theorem handling_recv {handled : Option (Packet × SocketAddr)} (before : Handling handled s.recv)
    (ran : s.recvStep env choice = some next) : Handling handled next.recv := by
  have goes := goes_recv ran
  generalize next.recv = recv at goes ⊢
  cases goes with
  | online position =>
    rw [position] at before
    exact before
  | handle position =>
    rcases position with position | ⟨endpoint, position⟩ <;>
      (rw [position] at before
       exact handling_handlePacket before)
  | @resume response addr rest position => exact handling_resume addr rest
  | registered | reporter | built => exact trivial
  | pending position | block position | inFlight position =>
    rw [position] at before
    exact before
  | @complete packet addr position =>
    rw [position] at before
    exact ⟨addr, before⟩
  | inside carries =>
    cases recv with
    | touch | reportOnline | ackWrite | ackPending | ackBlock | ackInFlight | ackComplete =>
      cases carries
    | _ => exact trivial

theorem afterRecv_handled (g : Gateway) : g.afterRecv.handled = g.handled := by
  unfold Gateway.afterRecv
  split
  · rfl
  · rfl
  · split <;> rfl
  · rfl

private theorem handling_receive {received : Option Packet} {addr : SocketAddr}
    {handled : Option (Packet × SocketAddr)} (before : Handling handled s.recv)
    (ran : s.step env (.receive received addr) = some next) :
    Handling ((received.map fun packet => (packet, addr)).or handled) next.recv := by
  simp only [Server.step] at ran
  split at ran
  · cases ran
    rfl
  · cases ran
    exact before
  · cases ran

theorem handling_step {act : GatewayAction} (before : Handling g.handled g.server.recv)
    (ran : g.step env act = some g') : Handling g'.handled g'.server.recv := by
  by_cases receives : ∃ packet addr, act = .server (.receive packet addr)
  · obtain ⟨packet, addr, rfl⟩ := receives
    cases gateway_move ran with
    | receive stepped => exact handling_receive before stepped
    | server quiet => cases quiet
  · have same : g'.handled = g.handled := by
      cases gateway_move ran with
      | receive stepped => exact (receives ⟨_, _, rfl⟩).elim
      | recv stepped => exact afterRecv_handled g
      | _ => rfl
    rw [same]
    have elsewhere {action : Action} (stepped : g.server.step env action = some g'.server)
        (recv : ∀ choice, action ≠ .recv choice) (phase : ∀ i choice, action ≠ .phase i choice)
        (receive : ∀ packet addr, action ≠ .receive packet addr) :
        Handling g.handled g'.server.recv := by
      rcases (elsewhere_step stepped recv phase).recv with kept | ⟨packet, addr, rfl, -, -⟩
      · rwa [kept]
      · exact (receive _ _ rfl).elim
    rcases server_part ran with kept | ⟨action, stepped, rfl | ⟨call, rfl⟩⟩
    · rwa [kept]
    · cases action with
      | recv choice => exact handling_recv before stepped
      | phase i choice =>
        obtain ⟨task, held, stepped⟩ := Option.bind_eq_some_iff.mp stepped
        obtain ⟨outcome, moved, stepped⟩ := Option.bind_eq_some_iff.mp stepped
        rw [← Option.some.inj stepped]
        exact before
      | receive packet addr => exact (receives ⟨packet, addr, rfl⟩).elim
      | _ => exact elsewhere stepped (by simp) (by simp) (by simp)
    · exact elsewhere stepped (by simp) (by simp) (by simp)

/-! ## What a lookup ends -/

/-- What is left of an exchange when the entry under a token is taken. -/
def without (token : Token) : Option (Token × SocketAddr) → Option (Token × SocketAddr)
  | none => none
  | some at_ => if at_.1 = token then none else some at_

theorem without_bind {α : Type} (token : Token) (found : Option α)
    (exchange : α → Option (Token × SocketAddr)) :
    without token (found.bind exchange) = found.bind fun value => without token (exchange value) := by
  cases found <;> rfl

theorem keyed_erase (acks : Table Token Nat) (token : Token) (peer : SocketAddr) (at_ : Token × Nat) :
    keyed (acks.erase token) peer at_ = without token (keyed acks peer at_) := by
  simp only [keyed, Table.lookup_erase_if]
  by_cases same : at_.1 = token
  · rw [if_pos same, if_neg nofun]
    split
    · simp [without, same]
    · rfl
  · rw [if_neg same]
    split
    · simp [without, same]
    · rfl

theorem session_erase (sessions : Table Token BootstrapSession) (token probe : Token)
    (peer : Option SocketAddr) :
    ((sessions.erase token).lookup probe).bind (fun _ => peer.map fun peer => (probe, peer)) =
      without token ((sessions.lookup probe).bind fun _ => peer.map fun peer => (probe, peer)) := by
  rw [without_bind, Table.lookup_erase_if]
  by_cases same : probe = token
  · rw [if_pos same]
    cases sessions.lookup probe with
    | none => rfl
    | some session => cases peer <;> simp [without, same]
  · rw [if_neg same]
    cases sessions.lookup probe with
    | none => rfl
    | some session => cases peer <;> simp [without, same]

private theorem afterRecv_acking (acks : acking g.server.recv = some packet) : g.afterRecv = g := by
  unfold Gateway.afterRecv
  split
  · rename_i position
    rw [position] at acks
    cases acks
  · rename_i position
    rw [position] at acks
    cases acks
  · rename_i position
    rw [position] at acks
    cases acks
  · rfl

section Lookups
variable {addr : SocketAddr} {armed : List (Sender × SendCall)}
  {transmissions : List (SendCall × UInt32)}

private theorem write_taken (position : g.server.recv = .ackWrite packet addr)
    (ran : g.server.recvStep env choice = some next) (x : Exchange) :
    pending { g with server := next, armed, transmissions } x =
      if searched g.server.recv x then without (tokenArray packet.token) (pending g x)
      else pending g x := by
  have taken : next.boot.writeAcks = g.server.boot.writeAcks.erase (tokenArray packet.token) ∧
      next.boot.byToken = g.server.boot.byToken ∧ next.phases = g.server.phases ∧
      next.blockAcks = g.server.blockAcks ∧ next.devices = g.server.devices := by
    simp only [Server.recvStep, position, BootstrapRegistry.completeWriteAck] at ran
    cases found : g.server.boot.writeAcks.lookup (tokenArray packet.token) with
    | none =>
      rw [found] at ran
      cases ran
      exact ⟨(Table.erase_of_lookup_none found).symm, rfl, rfl, rfl, rfl⟩
    | some sender =>
      rw [found] at ran
      cases ran
      exact ⟨rfl, rfl, rfl, rfl, rfl⟩
  obtain ⟨acks, sessions, phases, blocks, devices⟩ := taken
  rw [position]
  cases x with
  | write i =>
    simp only [pending, searched, if_true, without_bind, acks, phases, ← keyed_erase]
  | session probe => simp only [pending, searched, sessions, Bool.false_eq_true, if_false]
  | block i => simp only [pending, searched, blocks, Bool.false_eq_true, if_false]
  | operation id probe => simp only [pending, searched, devices, Bool.false_eq_true, if_false]

private theorem session_taken (position : g.server.recv = .ackComplete packet)
    (ran : g.server.recvStep env choice = some next) (x : Exchange) :
    pending { g with server := next, armed, transmissions } x =
      if searched g.server.recv x then without (tokenArray packet.token) (pending g x)
      else pending g x := by
  have taken : next.boot.byToken = g.server.boot.byToken.erase (tokenArray packet.token) ∧
      next.boot.writeAcks = g.server.boot.writeAcks ∧ next.phases = g.server.phases ∧
      next.blockAcks = g.server.blockAcks ∧ next.devices = g.server.devices := by
    simp only [Server.recvStep, position, BootstrapRegistry.complete] at ran
    cases found : g.server.boot.byToken.lookup (tokenArray packet.token) with
    | none =>
      rw [found] at ran
      cases ran
      exact ⟨(Table.erase_of_lookup_none found).symm, rfl, rfl, rfl, rfl⟩
    | some session =>
      rw [found] at ran
      cases ran
      exact ⟨rfl, rfl, rfl, rfl, rfl⟩
  obtain ⟨sessions, acks, phases, blocks, devices⟩ := taken
  rw [position]
  cases x with
  | session probe =>
    simp only [pending, searched, if_true, sessions]
    exact session_erase _ _ _ _
  | write i => simp only [pending, searched, acks, phases, Bool.false_eq_true, if_false]
  | block i => simp only [pending, searched, blocks, Bool.false_eq_true, if_false]
  | operation id probe => simp only [pending, searched, devices, Bool.false_eq_true, if_false]

private theorem block_taken (position : g.server.recv = .ackBlock packet addr)
    (ran : g.server.recvStep env choice = some next) (x : Exchange) :
    pending { g with server := next, armed, transmissions } x =
      if searched g.server.recv x then without (tokenArray packet.token) (pending g x)
      else pending g x := by
  have taken : next.blockAcks = g.server.blockAcks.erase (tokenArray packet.token) ∧
      next.boot = g.server.boot ∧ next.phases = g.server.phases ∧
      next.devices = g.server.devices := by
    simp only [Server.recvStep, position] at ran
    cases found : g.server.blockAcks.lookup (tokenArray packet.token) with
    | none =>
      rw [found] at ran
      cases ran
      exact ⟨(Table.erase_of_lookup_none found).symm, rfl, rfl, rfl⟩
    | some sender =>
      rw [found] at ran
      cases ran
      exact ⟨rfl, rfl, rfl, rfl⟩
  obtain ⟨blocks, boot, phases, devices⟩ := taken
  rw [position]
  cases x with
  | block i =>
    simp only [pending, searched, if_true, without_bind, blocks, ← keyed_erase]
  | write i => simp only [pending, searched, boot, phases, Bool.false_eq_true, if_false]
  | session probe => simp only [pending, searched, boot, Bool.false_eq_true, if_false]
  | operation id probe => simp only [pending, searched, devices, Bool.false_eq_true, if_false]

private theorem pending_asked (position : g.server.recv = .ackPending packet addr)
    (ran : g.server.recvStep env choice = some next) (x : Exchange) :
    pending { g with server := next, armed, transmissions } x = pending g x := by
  simp only [Server.recvStep, position] at ran
  cases ran
  cases x <;> rfl

private theorem completeInFlight_byId (r : DeviceRegistry) (addr : SocketAddr) (token : Token) :
    (r.completeInFlight addr token).2 = r ∨ ∃ id dev, r.byAddr.lookup addr = some id ∧
      r.byId.lookup id = some dev ∧ (r.completeInFlight addr token).2.byId =
        r.byId.insert id { dev with inFlight := dev.inFlight.erase token } := by
  unfold completeInFlight
  split
  · exact Or.inl rfl
  · rename_i id found
    split
    · exact Or.inl rfl
    · rename_i dev stored
      exact Or.inr ⟨id, dev, found, stored, rfl⟩

/-- An operation ends only by its device's address and its token. -/
private theorem operation_taken (position : g.server.recv = .ackInFlight packet addr)
    (ran : g.server.recvStep env choice = some next) (x : Exchange) :
    pending { g with server := next, armed, transmissions } x = pending g x ∨
      ∃ id dev, g.server.devices.byAddr.lookup addr = some id ∧
        g.server.devices.byId.lookup id = some dev ∧
        pending g x = some (tokenArray packet.token, dev.addr) := by
  have taken : next.devices = (g.server.devices.completeInFlight addr (tokenArray packet.token)).2 ∧
      next.boot = g.server.boot ∧ next.phases = g.server.phases ∧
      next.blockAcks = g.server.blockAcks := by
    simp only [Server.recvStep, position] at ran
    cases ran
    generalize (g.server.devices.completeInFlight addr (tokenArray packet.token)).1 = op
    cases op <;> exact ⟨rfl, rfl, rfl, rfl⟩
  obtain ⟨devices, boot, phases, blocks⟩ := taken
  cases x with
  | write i => simp only [pending, boot, phases, true_or]
  | session probe => simp only [pending, boot, true_or]
  | block i => simp only [pending, blocks, true_or]
  | operation id probe =>
    simp only [pending, devices]
    rcases completeInFlight_byId g.server.devices addr (tokenArray packet.token) with
      same | ⟨owner, dev, found, stored, table⟩
    · rw [same]
      exact Or.inl rfl
    · rw [table, Table.lookup_insert_if]
      by_cases own : id = owner
      · subst own
        rw [if_pos rfl, stored, Option.bind_some, Option.bind_some, Table.lookup_erase_if]
        by_cases named : probe = tokenArray packet.token
        · rw [if_pos named]
          cases flying : dev.inFlight.lookup probe with
          | none => exact Or.inl rfl
          | some op => exact Or.inr ⟨id, dev, found, stored, by rw [named]; rfl⟩
        · rw [if_neg named]
          exact Or.inl rfl
      · rw [if_neg own]
        exact Or.inl rfl

private theorem ended_of_taken {token : Token} {x : Exchange}
    (taken : pending g' x = if searched g.server.recv x then without token (pending g x) else pending g x)
    (changed : pending g' x ≠ pending g x) : ∃ peer, pending g x = some (token, peer) := by
  rw [taken] at changed
  by_cases found : searched g.server.recv x
  · rw [if_pos found] at changed
    cases held : pending g x with
    | none =>
      rw [held] at changed
      exact (changed rfl).elim
    | some at_ =>
      by_cases same : at_.1 = token
      · exact ⟨at_.2, by rw [← same]⟩
      · rw [held] at changed
        exact (changed (if_neg same)).elim
  · rw [if_neg found] at changed
    exact (changed rfl).elim

/-- A lookup that takes what is under a token ends only exchanges with an
address exactly if no exchange with another one is under the token. -/
private theorem own_peer_of_taken {token : Token} {source : SocketAddr}
    (taken : ∀ x, pending g' x =
      if searched g.server.recv x then without token (pending g x) else pending g x) :
    OwnPeer g g' source ↔ TokenOwned g token source := by
  constructor
  · intro own x peer found held
    have ended : pending g' x = none := by
      rw [taken x, if_pos found, held]
      simp [without]
    obtain ⟨given, same⟩ := own x (by rw [ended, held]; nofun)
    rw [held] at same
    cases same
    rfl
  · intro owned x changed
    by_cases found : searched g.server.recv x
    · obtain ⟨peer, held⟩ := ended_of_taken (taken x) changed
      exact ⟨token, by rw [held, owned x peer found held]⟩
    · rw [taken x, if_neg found] at changed
      exact (changed rfl).elim

end Lookups

/-- **What a step of `handle_ack` ends**: what is under the packet's token in
the map it searches by token alone, or the operation under that token of the
device at the packet's source. -/
theorem ack_taken (acks : acking g.server.recv = some packet)
    (ran : g.step env (.server (.recv choice)) = some g') :
    (∀ x, pending g' x = if searched g.server.recv x then
        without (tokenArray packet.token) (pending g x) else pending g x) ∨
    ∃ addr, g.server.recv = .ackInFlight packet addr ∧ ∀ x, pending g' x = pending g x ∨
      ∃ id dev, g.server.devices.byAddr.lookup addr = some id ∧
        g.server.devices.byId.lookup id = some dev ∧
        pending g x = some (tokenArray packet.token, dev.addr) := by
  cases gateway_move ran with
  | recv stepped =>
    rw [afterRecv_acking acks]
    cases position : g.server.recv with
    | ackWrite held addr =>
      rw [position] at acks
      cases acks
      exact Or.inl (position ▸ write_taken position stepped)
    | ackPending held addr =>
      rw [position] at acks
      cases acks
      exact Or.inl fun x => pending_asked position stepped x
    | ackComplete held =>
      rw [position] at acks
      cases acks
      exact Or.inl (position ▸ session_taken position stepped)
    | ackBlock held addr =>
      rw [position] at acks
      cases acks
      exact Or.inl (position ▸ block_taken position stepped)
    | ackInFlight held addr =>
      rw [position] at acks
      cases acks
      exact Or.inr ⟨addr, rfl, operation_taken position stepped⟩
    | _ =>
      rw [position] at acks
      cases acks
  | server quiet => cases quiet

/-- Whatever `handle_ack` ends was pending under the token of the packet. -/
theorem ended_under_token (acks : acking g.server.recv = some packet)
    (ran : g.step env (.server (.recv choice)) = some g') {x : Exchange}
    (changed : pending g' x ≠ pending g x) :
    ∃ peer, pending g x = some (tokenArray packet.token, peer) := by
  rcases ack_taken acks ran with taken | ⟨addr, -, taken⟩
  · exact ended_of_taken (taken x) changed
  · obtain ⟨id, dev, -, -, held⟩ := (taken x).resolve_left changed
    exact ⟨dev.addr, held⟩

theorem handled_of_acking {handled : Option (Packet × SocketAddr)} {recv : Recv}
    (handling : Handling handled recv) (acks : acking recv = some packet) :
    ∃ source, handled = some (packet, source) := by
  cases recv with
  | ackWrite held addr | ackPending held addr | ackBlock held addr | ackInFlight held addr =>
    cases acks
    exact ⟨addr, handling⟩
  | ackComplete held =>
    cases acks
    exact handling
  | _ => cases acks

/-! ## The recorded peers

The address of an exchange means what it says: every GET /0/0 that waits has
the address it was sent to on record, an operation goes into the table of the
device at the address it is sent to, and from then on the address on record is
changed only by a registration of that device. -/

theorem expireStale_byToken (boot : BootstrapRegistry) (now : Instant) (maxSecs : Nat) {token : Token}
    (held : ((boot.expireStale now maxSecs).byToken.lookup token).isSome) :
    (boot.byToken.lookup token).isSome := by
  unfold BootstrapRegistry.expireStale at held
  dsimp only at held
  generalize ((boot.byToken.entries.filter fun entry =>
    maxSecs < elapsedSecs now entry.2.startedAt).map (·.1)) = stale at held
  induction stale generalizing boot with
  | nil => exact held
  | cons first rest ih =>
    have left := ih (boot.expireOne first) held
    unfold BootstrapRegistry.expireOne at left
    split at left
    · exact left
    · rw [Table.lookup_erase_if] at left
      split at left
      · cases left
      · exact left

/-- A session begins only with a GET /0/0. -/
theorem session_cases {c next : Core} {action : Action} {token : Token}
    (moved : Transition env c action next) (held : (next.boot.byToken.lookup token).isSome) :
    (c.boot.byToken.lookup token).isSome ∨ ∃ choice endpoint addr, action = .recv choice ∧
      c.recv = .begin endpoint addr ∧ c.boot.byEndpoint.lookup endpoint = none ∧
      token = tokenOfId c.boot.tokenCounter ∧ .allocated token ∈ next.log := by
  cases moved with
  | begin position free =>
    simp only [Table.lookup_insert_if] at held
    split at held
    · rename_i same
      exact Or.inr ⟨_, _, _, rfl, position, free, same, same ▸ List.mem_cons_self⟩
    · exact Or.inl held
  | complete position found =>
    simp only [Table.lookup_erase_if] at held
    split at held
    · cases held
    · exact Or.inl held
  | @expire now maxSecs byToken byEndpoint expired =>
    refine Or.inl (expireStale_byToken c.boot now maxSecs ?_)
    rw [expired]
    exact held
  | phase _ move => cases move <;> exact Or.inl held
  | _ => exact Or.inl held

/-- Every session has the address its GET /0/0 goes to on record. -/
def Asked (g : Gateway) : Prop :=
  ∀ token, (g.server.boot.byToken.lookup token).isSome → (g.asked.lookup token).isSome

theorem afterRecv_asked (g : Gateway) {token : Token} (held : (g.asked.lookup token).isSome) :
    (g.afterRecv.asked.lookup token).isSome := by
  unfold Gateway.afterRecv
  split
  · exact held
  · exact held
  · split
    · simp only [Table.lookup_insert_if]
      split
      · rfl
      · exact held
    · exact held
  · exact held

theorem asked_step {act : GatewayAction} (asked : Asked g) (ran : g.step env act = some g') :
    Asked g' := by
  intro token held
  have kept (before : (g.server.boot.byToken.lookup token).isSome) :
      (g'.asked.lookup token).isSome := by
    have old := asked token before
    cases gateway_move ran with
    | recv => exact afterRecv_asked g old
    | _ => exact old
  rcases server_part ran with same | ⟨action, stepped, kind⟩
  · rw [same] at held
    exact kept held
  · rcases session_cases (step_transition stepped) held with
      before | ⟨choice, endpoint, addr, rfl, position, free, named, -⟩
    · exact kept before
    · rcases kind with rfl | ⟨call, equal⟩
      · cases gateway_move ran with
        | recv =>
          have began : (g.server.boot.begin g.server.clock endpoint).1 =
              some (token, g.server.boot.midCounter) := by
            have free : g.server.boot.byEndpoint.lookup endpoint = none := free
            have named : token = tokenOfId g.server.boot.tokenCounter := named
            simp [BootstrapRegistry.begin, free, named, BootstrapRegistry.allocInner]
          have position : g.server.recv = .begin endpoint addr := position
          simp [Gateway.afterRecv, position, began]
        | server quiet => cases quiet
      · cases equal

theorem reached_asked {guard : Gateway → GatewayAction → Prop}
    (reached : (Gateway.machine env).Reaches guard g) : Asked g := by
  refine reached.invariant Asked (fun g initial => ?_) fun g act g' _ asked _ ran => asked_step asked ran
  obtain ⟨seed, serverUri, included, now, snapshots, clock, trafficClass, -, -, -, rfl⟩ := initial
  intro token held
  cases held

/-- An operation is put in flight with the address it is sent to. -/
theorem dispatched_peer (sound : IndexesSound g.server.devices) (ran : g.step env .dispatch = some g')
    {id : UInt32} {token : Token} {peer : SocketAddr}
    (began : pending g' (.operation id token) = some (token, peer))
    (fresh : pending g (.operation id token) = none) :
    ∃ op queue, g.queue = (peer, op) :: queue ∧ token = tokenOfId op.id := by
  cases gateway_move ran with
  | @single addr op queue server task midCounter waiting placed pc =>
    cases placed
    simp only [pending, Server.clientStep, placeInFlight] at began
    cases found : g.server.devices.byAddr.lookup addr with
    | none =>
      rw [found] at began
      rw [pending, began] at fresh
      cases fresh
    | some owner =>
      obtain ⟨dev, stored, here⟩ := sound.byAddr addr owner found
      simp only [found, stored, putDevice, Table.lookup_insert_if] at began
      by_cases same : id = owner
      · subst same
        rw [if_pos rfl, Option.bind_some, Table.lookup_insert_if] at began
        by_cases named : token = tokenOfId op.id
        · rw [if_pos named] at began
          cases began
          exact ⟨op, queue, by rw [here, waiting], named⟩
        · rw [if_neg named] at began
          simp only [pending, stored, Option.bind_some] at fresh
          rw [began] at fresh
          cases fresh
      · rw [if_neg same] at began
        rw [pending, began] at fresh
        cases fresh
  | _ =>
    simp only [pending] at began fresh
    rw [began] at fresh
    cases fresh

private theorem quiet_addr {r r' : DeviceRegistry} {id : UInt32} {changed : Device}
    (quiet : Quiet r r') (held : r'.byId.lookup id = some changed) :
    ∃ dev, r.byId.lookup id = some dev ∧ changed.addr = dev.addr := by
  induction quiet generalizing changed with
  | update kept =>
    obtain ⟨dev, stored, same⟩ := kept.backward held
    exact ⟨dev, stored, same.2.2⟩
  | remove =>
    simp only [removeDevice, Table.lookup_erase_if] at held
    split at held
    · cases held
    · exact ⟨changed, held, rfl⟩
  | trans first second ihFirst ihSecond =>
    obtain ⟨middle, between, same⟩ := ihSecond held
    obtain ⟨dev, stored, same'⟩ := ihFirst between
    exact ⟨dev, stored, same.trans same'⟩

private theorem registered_addr {r r' : DeviceRegistry} {now : Instant} {endpoint : String}
    {addr : SocketAddr} {reg : Registration} {given id : UInt32} {changed : Device}
    (registered : Registered r now endpoint addr reg (given, r'))
    (held : r'.byId.lookup id = some changed) :
    (∃ dev, r.byId.lookup id = some dev ∧ changed.addr = dev.addr) ∨ changed.addr = addr := by
  have other (stored : r.byId.lookup id = some changed) :
      ∃ dev, r.byId.lookup id = some dev ∧ changed.addr = dev.addr := ⟨changed, stored, rfl⟩
  cases registered with
  | refreshed | moved | added =>
    simp only [putDevice, Table.lookup_insert_if] at held
    split at held
    · cases held
      exact Or.inr rfl
    · exact Or.inl (other held)

/-- The address of an operation that stays in flight is changed only by a
registration of its device. -/
theorem operation_peer_moves (sound : IndexesSound g.server.devices) {act : GatewayAction}
    (ran : g.step env act = some g') {id : UInt32} {token : Token} {peer moved : SocketAddr}
    (before : pending g (.operation id token) = some (token, peer))
    (later : pending g' (.operation id token) = some (token, moved)) (apart : moved ≠ peer) :
    ∃ action endpoint, act = .server action ∧
      registering g.server action = some (endpoint, moved) := by
  obtain ⟨dev, stored, flying⟩ := Option.bind_eq_some_iff.mp before
  obtain ⟨op, -, at_⟩ := Option.map_eq_some_iff.mp flying
  cases at_
  obtain ⟨changed, stored', flying'⟩ := Option.bind_eq_some_iff.mp later
  obtain ⟨op', -, at_⟩ := Option.map_eq_some_iff.mp flying'
  cases at_
  rcases server_part ran with same | ⟨action, stepped, kind⟩
  · rw [same, stored] at stored'
    cases stored'
    exact (apart rfl).elim
  · generalize g'.server = next at stepped stored'
    have quiet (kept : Quiet g.server.devices next.devices) : False := by
      obtain ⟨old, held, same⟩ := quiet_addr kept stored'
      rw [stored] at held
      cases held
      exact apart same
    cases device_move sound.resolve stepped with
    | register position registered =>
      rcases kind with rfl | ⟨call, equal⟩
      · rcases registered_addr registered stored' with ⟨old, held, same⟩ | here
        · rw [stored] at held
          cases held
          exact (apart same).elim
        · exact ⟨_, _, rfl, by rw [registering, position, here]⟩
      · cases equal
    | remove => exact (quiet (quiet_removeByAddr sound.resolve _)).elim
    | deregister => exact (quiet (quiet_removeByAddr sound.resolve _)).elim
    | other _ kept => exact (quiet kept).elim
    | _ =>
      rw [stored] at stored'
      cases stored'
      exact (apart rfl).elim


/-! ## In every state reached -/

theorem reached_handling (reached : (Gateway.machine env).Reaches IdFree g) :
    IndexesSound g.server.devices ∧ Handling g.handled g.server.recv := by
  refine reached.invariant
    (fun g => IndexesSound g.server.devices ∧ Handling g.handled g.server.recv)
    (fun g initial => ⟨start_sound initial, ?_⟩) ?_
  · obtain ⟨seed, serverUri, included, now, snapshots, clock, trafficClass, -, -, -, rfl⟩ := initial
    exact trivial
  · rintro g act g' - ⟨sound, handling⟩ free ran
    exact ⟨sound_step sound free ran, handling_step handling ran⟩

/-- **Whose acknowledgement ends an exchange.** In every step of `handle_ack`,
for a datagram from any source with any token, only exchanges with that source
are ended and all others are left as they are, exactly if the map that the step
searches by token alone has no exchange with another address under the token.
An operation in flight is never ended by another address. -/
theorem ack_own_peer_iff (reached : (Gateway.machine env).Reaches IdFree g)
    (acks : acking g.server.recv = some packet) :
    ∃ source, g.handled = some (packet, source) ∧
      ∀ choice g', g.step env (.server (.recv choice)) = some g' →
        (OwnPeer g g' source ↔ TokenOwned g (tokenArray packet.token) source) := by
  obtain ⟨sound, handling⟩ := reached_handling reached
  obtain ⟨source, handled⟩ := handled_of_acking handling acks
  refine ⟨source, handled, fun choice g' ran => ?_⟩
  rcases ack_taken acks ran with taken | ⟨addr, position, taken⟩
  · exact own_peer_of_taken taken
  · rw [position] at handling
    cases handled.symm.trans handling
    have own : OwnPeer g g' source := by
      intro x changed
      obtain ⟨id, dev, found, stored, held⟩ := (taken x).resolve_left changed
      obtain ⟨owner, stored', here⟩ := sound.byAddr source id found
      rw [stored] at stored'
      cases stored'
      exact ⟨tokenArray packet.token, by rw [held, here]⟩
    refine ⟨fun _ x peer found => ?_, fun _ => own⟩
    rw [position] at found
    cases found

/-! ## A stranger's acknowledgement -/

/-- The token of the first GET /0/0 after a start with seed 0. -/
def firstToken : Token := tokenOfId 0x80000000

def answerToGet : Packet :=
  Peer.ack 0x80000000 (.response .content) (Peer.certPayload Peer.genuine)

/-- The mower is asked for its certificate, and an answer comes from some
address. -/
def answeredFrom (source : SocketAddr) : List GatewayAction :=
  Peer.relay (Peer.post "bs" "mower") Peer.addr 5 ++ [.setClass .recv true, .server (.recv {})] ++
    Peer.relay answerToGet source 3

def stranger : SocketAddr := .v6 0xfc000006010000000000000000000002 5683 0 0

/-- The receive loop is about to complete a session. -/
def completing : Recv → Bool
  | .ackComplete _ => true
  | _ => false

/-- The session is pending with the mower and the receive loop is about to
complete it for a datagram from `source`. -/
def aboutToComplete (source : SocketAddr) (g : Gateway) : Bool :=
  completing g.server.recv && decide (acking g.server.recv = some answerToGet) &&
    decide (g.handled = some (answerToGet, source)) &&
    decide (pending g (.session firstToken) = some (firstToken, Peer.addr)) &&
    (g.step Peer.env (.server (.recv {}))).any fun next => decide (pending next (.session firstToken) = none)

theorem aboutToComplete_spec {source : SocketAddr} (seen : aboutToComplete source g = true) :
    completing g.server.recv = true ∧ acking g.server.recv = some answerToGet ∧
      g.handled = some (answerToGet, source) ∧
      pending g (.session firstToken) = some (firstToken, Peer.addr) ∧
      ∃ g', g.step Peer.env (.server (.recv {})) = some g' ∧ pending g' (.session firstToken) = none := by
  simp only [aboutToComplete, Bool.and_eq_true, decide_eq_true_eq, Option.any_eq_true] at seen
  obtain ⟨⟨⟨⟨completes, acks⟩, handled⟩, waits⟩, g', ran, ended⟩ := seen
  exact ⟨completes, acks, handled, waits, g', ran, ended⟩

/-- There is one session under a token. -/
theorem owned_of_session {token : Token} {source : SocketAddr} (completes : completing g.server.recv = true)
    (waits : pending g (.session token) = some (token, source)) : TokenOwned g token source := by
  intro x peer found held
  cases x with
  | session probe =>
    have same : probe = token := by
      obtain ⟨session, -, recorded⟩ := Option.bind_eq_some_iff.mp held
      obtain ⟨at_, -, pair⟩ := Option.map_eq_some_iff.mp recorded
      cases pair
      rfl
    rw [same, waits] at held
    cases held
    rfl
  | _ =>
    cases position : g.server.recv with
    | ackComplete =>
      rw [position] at found
      cases found
    | _ =>
      rw [position] at completes
      cases completes

/-- The mower's own answer ends its session, and no other exchange. -/
theorem mower_ends_session :
    ∃ g g', (Gateway.machine Peer.env).exec IdFree Peer.gateway (answeredFrom Peer.addr) = some g ∧
      g.step Peer.env (.server (.recv {})) = some g' ∧ OwnPeer g g' Peer.addr ∧
      pending g (.session firstToken) = some (firstToken, Peer.addr) ∧
      pending g' (.session firstToken) = none := by
  obtain ⟨g, ran, reached, seen⟩ := (Gateway.machine Peer.env).exec_reaches IdFree _
    (answeredFrom Peer.addr) (aboutToComplete Peer.addr) Peer.start_gateway (by decide +kernel)
  obtain ⟨completes, acks, handled, waits, g', stepped, ended⟩ := aboutToComplete_spec seen
  obtain ⟨source, same, owns⟩ := ack_own_peer_iff reached acks
  rw [handled] at same
  cases same
  have named : tokenArray answerToGet.token = firstToken := by decide
  have owned : TokenOwned g (tokenArray answerToGet.token) Peer.addr := by
    rw [named]
    exact owned_of_session completes waits
  exact ⟨g, g', ran, stepped, (owns {} g' stepped).mpr owned, waits, ended⟩

/-- **A stranger's acknowledgement ends the mower's session.** -/
theorem stranger_ends_session :
    ∃ g g' packet source choice, (Gateway.machine Peer.env).Reaches Machine.always g ∧
      acking g.server.recv = some packet ∧ g.handled = some (packet, source) ∧
      g.step Peer.env (.server (.recv choice)) = some g' ∧ ¬ OwnPeer g g' source := by
  obtain ⟨g, -, reached, seen⟩ := (Gateway.machine Peer.env).exec_reaches Machine.always _
    (answeredFrom stranger) (aboutToComplete stranger) Peer.start_gateway (by decide +kernel)
  obtain ⟨-, acks, handled, waits, g', stepped, ended⟩ := aboutToComplete_spec seen
  refine ⟨g, g', answerToGet, stranger, {}, reached, acks, handled, stepped, fun own => ?_⟩
  obtain ⟨token, same⟩ := own (.session firstToken) (by rw [ended, waits]; nofun)
  rw [waits] at same
  cases same

end Lwm2mServer.Exchanges
