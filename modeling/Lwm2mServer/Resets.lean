import Lwm2mServer.BlockAcks
import Lwm2mServer.Exchanges
import Lwm2mServer.InboundContact
import Lwm2mServer.WriteAcks

/-! A device rejects a request with a Reset: an empty message that has the
request's message id and no token. `handle_packet` does not look at the message
id. It pads the token that is not there to eight zero bytes and looks for the
request under these, so what a Reset fails is a request whose token is zero. -/
namespace Lwm2mServer.Resets
open Library BlockAcks DeviceRegistry DeviceRecords Exchanges GatewaySteps WriteAcks

/-- A Reset of the message with an id. -/
def reset (messageId : UInt16) : Packet where
  type := .reset
  code := .empty
  messageId := messageId
  token := []

/-- The token `handle_packet` reads from it. -/
def zeroToken : Token := tokenArray []

/-- The receive loop takes a datagram and handles it; no other task moves. -/
def handling (env : Env) (g : Gateway) (packet : Packet) (addr : SocketAddr) : Machine Gateway Choice where
  start t := g.step env (.server (.receive (some packet) addr)) = some t
  step t choice := t.step env (.server (.recv choice))

/-- The token of an exchange that is not answered yet. -/
def unanswered (g : Gateway) (x : Exchange) : Option Token := (pending g x).map Prod.fst

/-- A request was completed with an error: a write step with `false`, an
operation with a CoAP error; the task of a block-wise write finds its sender
dropped, which it answers with a CoAP error. -/
def Failed (g t : Gateway) : Exchange → Prop
  | .session _ => False
  | .write i => unanswered t (.write i) = none ∧ ∃ task token channel,
      g.server.phases.get? i = some task ∧ awaiting task.pc = some (token, channel) ∧
        t.server.boot.oneshots.cell channel = .sent false
  | .block i => unanswered t (.block i) = none ∧ ∃ task channel,
      g.blockWrites.get? i = some task ∧ listening task.pc = some channel ∧
        t.server.blockChannels.cell channel = .closed
  | .operation id token => unanswered t (.operation id token) = none ∧ ∃ dev op,
      g.server.devices.byId.lookup id = some dev ∧ dev.inFlight.lookup token = some op ∧
        t.server.replies = (op.responseTx, .error (.coapError 5 0)) :: g.server.replies

/-- The request was failed, and nothing else was. -/
def Rejected (g t : Gateway) (x : Exchange) : Prop :=
  Failed g t x ∧ ∀ y, y ≠ x → unanswered t y = unanswered g y

/-- What the handler ends for a Reset from an address: it stops at a GET /0/0
under the zero token, and at a write step. -/
def Ends (g : Gateway) (source : SocketAddr) (x : Exchange) : Prop :=
  unanswered g x = some zeroToken ∧ g.server.boot.byToken.lookup zeroToken = none ∧
    match x with
    | .session _ => False
    | .write _ => True
    | .block _ => g.server.boot.writeAcks.lookup zeroToken = none
    | .operation id _ => g.server.boot.writeAcks.lookup zeroToken = none ∧
      g.server.devices.byAddr.lookup source = some id

/-- The request has the zero token and is the only one that the handler ends. -/
def Foremost (g : Gateway) (source : SocketAddr) (x : Exchange) : Prop :=
  Ends g source x ∧ ∀ y, Ends g source y → y = x

variable {env : Env} {s u next : Server} {g t : Gateway} {source : SocketAddr} {m : UInt16}
  {choice : Choice}

/-! ## The receive loop -/

/-- What the two lookups of a Reset depend on is as it was. -/
structure Same (s u : Server) : Prop where
  boot : u.boot = s.boot
  blockAcks : u.blockAcks = s.blockAcks
  blockChannels : u.blockChannels = s.blockChannels
  phases : u.phases = s.phases
  replies : u.replies = s.replies
  byAddr : u.devices.byAddr = s.devices.byAddr
  inFlight : ∀ id, (u.devices.byId.lookup id).map (·.inFlight) =
    (s.devices.byId.lookup id).map (·.inFlight)

/-- How far the handler is. -/
inductive Handled (s : Server) (packet : Packet) (source : SocketAddr) (u : Server) : Prop where
  | early (same : Same s u) (position : u.recv = .touch packet source ∨
      (∃ endpoint, u.recv = .reportOnline endpoint packet source) ∨ u.recv = .rstPending packet source)
  | pending (same : Same s u) (session : (s.boot.byToken.lookup zeroToken).isSome)
      (position : u.recv = .idle)
  | write (same : Same s u) (none_ : s.boot.byToken.lookup zeroToken = none)
      (position : u.recv = .rstWrite packet source)
  | written (before : Server) (channel : Nat) (same : Same s before)
      (none_ : s.boot.byToken.lookup zeroToken = none)
      (stored : s.boot.writeAcks.lookup zeroToken = some channel) (log : List Event)
      (after : u = { before with
        boot := (s.boot.completeWriteAck zeroToken false).2, recv := .idle, log })
  | block (same : Same s u) (none_ : s.boot.byToken.lookup zeroToken = none)
      (absent : s.boot.writeAcks.lookup zeroToken = none) (position : u.recv = .rstBlock packet source)
  | inFlight (before : Server) (same : Same s before)
      (none_ : s.boot.byToken.lookup zeroToken = none)
      (absent : s.boot.writeAcks.lookup zeroToken = none)
      (after : u = { before.disarmBlock zeroToken with recv := .rstInFlight packet source })
  | completed (before : Server) (same : Same s before)
      (none_ : s.boot.byToken.lookup zeroToken = none)
      (absent : s.boot.writeAcks.lookup zeroToken = none)
      (after : u = { before.disarmBlock zeroToken with
          devices := (before.devices.completeInFlight source zeroToken).2, recv := .idle }.answer
        (before.devices.completeInFlight source zeroToken).1 (.error (.coapError 5 0)))

private theorem touch_same {came : Option String} {devices : DeviceRegistry} {now : Instant}
    {r : DeviceRegistry} (touched : r.touch now source = some (came, devices)) :
    devices.byAddr = r.byAddr ∧
      ∀ id, (devices.byId.lookup id).map (·.inFlight) = (r.byId.lookup id).map (·.inFlight) := by
  unfold touch at touched
  split at touched
  · cases touched
    exact ⟨rfl, fun _ => rfl⟩
  · rename_i owner index
    obtain ⟨dev, held, touched⟩ := Option.bind_eq_some_iff.mp touched
    have put {changed : Device} (flights : changed.inFlight = dev.inFlight) (id : UInt32) :
        ((r.putDevice owner changed).byId.lookup id).map (·.inFlight) =
          (r.byId.lookup id).map (·.inFlight) := by
      simp only [putDevice, Table.lookup_insert_if]
      split
      · rename_i same
        rw [same, held, Option.map_some, Option.map_some, flights]
      · rfl
    dsimp only at touched
    split at touched <;> cases touched <;> exact ⟨rfl, put rfl⟩

private theorem handled_step (handled : Handled s (reset m) source u)
    (ran : u.recvStep env choice = some next) : Handled s (reset m) source next := by
  have zero : tokenArray (reset m).token = zeroToken := rfl
  cases handled with
  | early same position =>
    rcases position with position | ⟨endpoint, position⟩ | position
    · simp only [Server.recvStep, position] at ran
      obtain ⟨⟨came, devices⟩, touched, ran⟩ := Option.bind_eq_some_iff.mp ran
      cases ran
      obtain ⟨addrs, flights⟩ := touch_same touched
      refine .early ⟨same.boot, same.blockAcks, same.blockChannels, same.phases, same.replies,
        addrs.trans same.byAddr, fun id => (flights id).trans (same.inFlight id)⟩ (Or.inr ?_)
      cases came with
      | none => exact Or.inr rfl
      | some endpoint => exact Or.inl ⟨endpoint, rfl⟩
    · simp only [Server.recvStep, position] at ran
      cases ran
      exact .early ⟨same.boot, same.blockAcks, same.blockChannels, same.phases, same.replies,
        same.byAddr, same.inFlight⟩ (Or.inr (Or.inr rfl))
    · have asked : u.boot.isPending zeroToken = (s.boot.byToken.lookup zeroToken).isSome := by
        rw [same.boot]
        rfl
      simp only [Server.recvStep, position, zero, asked] at ran
      cases found : s.boot.byToken.lookup zeroToken with
      | some session =>
        rw [found] at ran
        cases ran
        exact .pending ⟨same.boot, same.blockAcks, same.blockChannels, same.phases, same.replies,
          same.byAddr, same.inFlight⟩ (by rw [found]; rfl) rfl
      | none =>
        rw [found] at ran
        cases ran
        exact .write ⟨same.boot, same.blockAcks, same.blockChannels, same.phases, same.replies,
          same.byAddr, same.inFlight⟩ found rfl
  | pending same session position =>
    simp only [Server.recvStep, position] at ran
    cases ran
  | write same none_ position =>
    simp only [Server.recvStep, position, zero, same.boot] at ran
    cases stored : s.boot.writeAcks.lookup zeroToken with
    | some channel =>
      have completes : s.boot.completeWriteAck zeroToken false =
          (some channel, (s.boot.completeWriteAck zeroToken false).2) := by
        simp only [BootstrapRegistry.completeWriteAck, stored]
      rw [completes] at ran
      cases ran
      exact .written u channel same none_ stored _ rfl
    | none =>
      have misses : s.boot.completeWriteAck zeroToken false = (none, s.boot) := by
        simp only [BootstrapRegistry.completeWriteAck, stored]
      rw [misses] at ran
      cases ran
      exact .block ⟨rfl, same.blockAcks, same.blockChannels, same.phases, same.replies, same.byAddr,
        same.inFlight⟩ none_ stored rfl
  | written before channel same none_ stored log after =>
    subst after
    cases ran
  | block same none_ absent position =>
    simp only [Server.recvStep, position, zero] at ran
    cases ran
    exact .inFlight u same none_ absent rfl
  | inFlight before same none_ absent after =>
    subst after
    simp only [Server.recvStep, zero] at ran
    cases ran
    exact .completed before same none_ absent rfl
  | completed before same none_ absent after =>
    have idle : u.recv = .idle := by
      rw [after]
      unfold Server.answer
      split <;> rfl
    simp only [Server.recvStep, idle] at ran
    cases ran

/-- A position at which the rest of the gateway has no part. -/
private def alone : Recv → Bool
  | .idle | .touch .. | .reportOnline .. | .rstPending .. | .rstWrite .. | .rstBlock ..
  | .rstInFlight .. => true
  | _ => false

private theorem handled_alone (handled : Handled s (reset m) source u) : alone u.recv = true := by
  cases handled with
  | early same position =>
    rcases position with position | ⟨endpoint, position⟩ | position <;>
      (rw [position]
       rfl)
  | pending same session position | write same none_ position | block same none_ absent position =>
    rw [position]
    rfl
  | written before channel same none_ stored log after | inFlight before same none_ absent after =>
    rw [after]
    rfl
  | completed before same none_ absent after =>
    rw [after]
    unfold Server.answer
    split <;> rfl

/-- The positions of the handler send nothing and start nothing. -/
private theorem afterRecv_alone (position : alone t.server.recv = true) : t.afterRecv = t := by
  unfold Gateway.afterRecv
  split
  · rename_i here
    rw [here] at position
    cases position
  · rename_i here
    rw [here] at position
    cases position
  · rename_i here
    rw [here] at position
    cases position
  · rfl

private theorem release_alone (position : alone t.server.recv = true) (sent : Bool) :
    t.release env .recv sent = some t := by
  have silent : t.sending env .recv = none := by
    cases here : t.server.recv with
    | respond | acknowledge | sendGet =>
      rw [here] at position
      cases position
    | _ => simp only [Gateway.sending, here]
  rw [Gateway.release, silent]

private theorem reached_handled (handled : (handling env g (reset m) source).Reaches Machine.always t) :
    t.blockWrites = g.blockWrites ∧ t.asked = g.asked ∧ Handled g.server (reset m) source t.server := by
  refine handled.invariant (fun t => t.blockWrites = g.blockWrites ∧ t.asked = g.asked ∧
    Handled g.server (reset m) source t.server) ?_ ?_
  · intro t arrived
    cases gateway_move arrived with
    | receive ran =>
      refine ⟨rfl, rfl, ?_⟩
      simp only [Server.step] at ran
      split at ran
      · rename_i same
        cases same
        cases ran
        exact .early ⟨rfl, rfl, rfl, rfl, rfl, rfl, fun _ => rfl⟩ (Or.inl rfl)
      · rename_i same
        cases same
      · cases ran
    | server quiet => cases quiet
  · rintro t choice next - ⟨blocks, asked, before⟩ - ran
    have moved : t.step env (.server (.recv choice)) = some next := ran
    cases gateway_move moved with
    | recv stepped =>
      rw [afterRecv_alone (handled_alone before)]
      exact ⟨blocks, asked, handled_step before stepped⟩
    | server quiet => cases quiet

/-- A run of the receive loop alone is one of the gateway. -/
private theorem lift_handled (idle : g.server.recv = .idle)
    (ran : (InboundContact.handling env g.server (reset m) source).Reaches Machine.always u) :
    ∃ t, (handling env g (reset m) source).Reaches Machine.always t ∧ t.server = u := by
  induction ran with
  | start initial =>
    subst initial
    refine ⟨{ g with
      server := { g.server with recv := .touch (reset m) source }
      handled := some (reset m, source) }, .start ?_, rfl⟩
    change g.serverStep env (.receive (some (reset m)) source) = _
    simp only [Gateway.serverStep, Server.step, idle]
    rfl
  | @step before choice next reached _ ran ih =>
    obtain ⟨t, handled, rfl⟩ := ih
    have position := handled_alone (reached_handled handled).2.2
    have stepped : t.server.step env (.recv choice) = some next := ran
    have moved : (handling env g (reset m) source).step t choice = some { t with server := next } := by
      change t.serverStep env (.recv choice) = _
      simp only [Gateway.serverStep, stepped, release_alone position, afterRecv_alone position,
        Option.bind_eq_bind, Option.bind_some]
      rfl
    exact ⟨{ t with server := next }, .step handled trivial moved, rfl⟩

/-! ## What is answered -/

private theorem unanswered_operation (g : Gateway) (id : UInt32) (token : Token) :
    unanswered g (.operation id token) =
      ((g.server.devices.byId.lookup id).map (·.inFlight)).bind fun flights =>
        (flights.lookup token).map fun _ => token := by
  simp only [unanswered, pending]
  cases g.server.devices.byId.lookup id with
  | none => rfl
  | some dev =>
    simp only [Option.bind_some, Option.map_some]
    cases dev.inFlight.lookup token <;> rfl

private theorem operation_token {id : UInt32} {token named : Token}
    (waits : unanswered g (.operation id token) = some named) : token = named := by
  rw [unanswered_operation] at waits
  obtain ⟨flights, -, waits⟩ := Option.bind_eq_some_iff.mp waits
  obtain ⟨op, -, same⟩ := Option.map_eq_some_iff.mp waits
  exact same

private theorem write_waits {i : Nat} {token : Token} (waits : unanswered g (.write i) = some token) :
    ∃ task channel, g.server.phases.get? i = some task ∧ awaiting task.pc = some (token, channel) ∧
      g.server.boot.writeAcks.lookup token = some channel := by
  obtain ⟨⟨named, peer⟩, found, same⟩ := Option.map_eq_some_iff.mp waits
  obtain ⟨task, held, found⟩ := Option.bind_eq_some_iff.mp found
  obtain ⟨⟨own, channel⟩, at_, found⟩ := Option.bind_eq_some_iff.mp found
  unfold keyed at found
  split at found
  · rename_i stored
    cases found
    cases same
    exact ⟨task, channel, held, at_, stored⟩
  · cases found

private theorem block_waits {i : Nat} {token : Token} (waits : unanswered g (.block i) = some token) :
    ∃ task channel, g.blockWrites.get? i = some task ∧ listening task.pc = some channel ∧
      g.server.blockAcks.lookup token = some channel := by
  obtain ⟨⟨named, peer⟩, found, same⟩ := Option.map_eq_some_iff.mp waits
  obtain ⟨task, held, found⟩ := Option.bind_eq_some_iff.mp found
  obtain ⟨channel, at_, found⟩ := Option.bind_eq_some_iff.mp found
  unfold keyed at found
  split at found
  · rename_i stored
    cases found
    cases same
    exact ⟨task, channel, held, at_, stored⟩
  · cases found

/-- Nothing is answered as long as all tables are as they were. -/
private theorem unanswered_same (blocks : t.blockWrites = g.blockWrites) (asked : t.asked = g.asked)
    (same : Same g.server t.server) (y : Exchange) : unanswered t y = unanswered g y := by
  cases y with
  | write i => simp only [unanswered, pending, same.phases, same.boot]
  | session token => simp only [unanswered, pending, same.boot, asked]
  | block i => simp only [unanswered, pending, blocks, same.blockAcks]
  | operation id token => rw [unanswered_operation, unanswered_operation, same.inFlight]

private theorem map_without (token : Token) (found : Option (Token × SocketAddr)) :
    (without token found).map Prod.fst =
      if found.map Prod.fst = some token then none else found.map Prod.fst := by
  cases found with
  | none => rfl
  | some at_ =>
    simp only [without, Option.map_some, Option.some.injEq]
    split <;> rfl

private theorem flights_completeInFlight (r : DeviceRegistry) (token : Token) (id : UInt32) :
    ((r.completeInFlight source token).2.byId.lookup id).map (·.inFlight) =
      (r.byId.lookup id).map fun dev =>
        if r.byAddr.lookup source = some id then dev.inFlight.erase token else dev.inFlight := by
  cases index : r.byAddr.lookup source with
  | none => simp [completeInFlight, index]
  | some owner =>
    cases held : r.byId.lookup owner with
    | none =>
      simp only [completeInFlight, index, held]
      by_cases same : owner = id
      · rw [← same, held]
        rfl
      · have apart : some owner ≠ some id := fun equal => same (Option.some.inj equal)
        simp [apart]
    | some dev =>
      simp only [completeInFlight, index, held, putDevice, Table.lookup_insert_if]
      by_cases same : id = owner
      · rw [if_pos same, same, held]
        simp
      · have apart : some owner ≠ some id := fun equal => same (Option.some.inj equal).symm
        simp [same, apart]

/-- A write step was found. -/
private theorem unanswered_written {before : Server} {channel : Nat} {log : List Event}
    (blocks : t.blockWrites = g.blockWrites) (asked : t.asked = g.asked) (same : Same g.server before)
    (none_ : g.server.boot.byToken.lookup zeroToken = none)
    (stored : g.server.boot.writeAcks.lookup zeroToken = some channel)
    (after : t.server = { before with
      boot := (g.server.boot.completeWriteAck zeroToken false).2, recv := .idle, log })
    (y : Exchange) :
    (Ends g source y → unanswered t y = none) ∧ (¬ Ends g source y → unanswered t y = unanswered g y) := by
  have acks : t.server.boot.writeAcks = g.server.boot.writeAcks.erase zeroToken := by
    rw [after]
    simp only [BootstrapRegistry.completeWriteAck, stored]
  have sessions : t.server.boot.byToken = g.server.boot.byToken := by
    rw [after]
    simp only [BootstrapRegistry.completeWriteAck, stored]
  have phases : t.server.phases = g.server.phases := by rw [after]; exact same.phases
  have blockAcks : t.server.blockAcks = g.server.blockAcks := by rw [after]; exact same.blockAcks
  have flights : ∀ id, (t.server.devices.byId.lookup id).map (·.inFlight) =
      (g.server.devices.byId.lookup id).map (·.inFlight) := by rw [after]; exact same.inFlight
  cases y with
  | write i =>
    have taken : pending t (.write i) = without zeroToken (pending g (.write i)) := by
      simp only [pending, without_bind, acks, phases, ← keyed_erase]
    have left : unanswered t (.write i) =
        if unanswered g (.write i) = some zeroToken then none else unanswered g (.write i) := by
      rw [unanswered, taken, map_without]
      rfl
    exact ⟨fun ends => left.trans (if_pos ends.1),
      fun other => left.trans (if_neg fun zero => other ⟨zero, none_, trivial⟩)⟩
  | session token =>
    exact ⟨fun ends => ends.2.2.elim, fun _ => by simp only [unanswered, pending, sessions, asked]⟩
  | block i =>
    refine ⟨fun ends => ?_, fun _ => by simp only [unanswered, pending, blocks, blockAcks]⟩
    have absent : g.server.boot.writeAcks.lookup zeroToken = none := ends.2.2
    rw [stored] at absent
    cases absent
  | operation id token =>
    refine ⟨fun ends => ?_, fun _ => by rw [unanswered_operation, unanswered_operation, flights]⟩
    have absent : g.server.boot.writeAcks.lookup zeroToken = none := ends.2.2.1
    rw [stored] at absent
    cases absent

/-- No write step was found: the handler goes on to the block-wise writes and to
the operations in flight. -/
private theorem unanswered_completed {before : Server} (blocks : t.blockWrites = g.blockWrites)
    (asked : t.asked = g.asked) (same : Same g.server before)
    (none_ : g.server.boot.byToken.lookup zeroToken = none)
    (absent : g.server.boot.writeAcks.lookup zeroToken = none)
    (after : t.server = { before.disarmBlock zeroToken with
        devices := (before.devices.completeInFlight source zeroToken).2, recv := .idle }.answer
      (before.devices.completeInFlight source zeroToken).1 (.error (.coapError 5 0)))
    (y : Exchange) :
    (Ends g source y → unanswered t y = none) ∧ (¬ Ends g source y → unanswered t y = unanswered g y) := by
  obtain ⟨boot, phases, blockAcks, devices⟩ : t.server.boot = g.server.boot ∧
      t.server.phases = g.server.phases ∧
      t.server.blockAcks = g.server.blockAcks.erase zeroToken ∧
      t.server.devices = (before.devices.completeInFlight source zeroToken).2 := by
    rw [after, ← same.boot, ← same.phases, ← same.blockAcks]
    unfold Server.answer
    split <;> exact ⟨rfl, rfl, rfl, rfl⟩
  cases y with
  | write i =>
    refine ⟨fun ends => ?_, fun _ => by simp only [unanswered, pending, boot, phases]⟩
    obtain ⟨task, channel, -, -, stored⟩ := write_waits ends.1
    rw [absent] at stored
    cases stored
  | session token =>
    exact ⟨fun ends => ends.2.2.elim, fun _ => by simp only [unanswered, pending, boot, asked]⟩
  | block i =>
    have taken : pending t (.block i) = without zeroToken (pending g (.block i)) := by
      simp only [pending, without_bind, blocks, blockAcks, ← keyed_erase]
    have left : unanswered t (.block i) =
        if unanswered g (.block i) = some zeroToken then none else unanswered g (.block i) := by
      rw [unanswered, taken, map_without]
      rfl
    exact ⟨fun ends => left.trans (if_pos ends.1),
      fun other => left.trans (if_neg fun zero => other ⟨zero, none_, absent⟩)⟩
  | operation id token =>
    have left : unanswered t (.operation id token) =
        if token = zeroToken ∧ g.server.devices.byAddr.lookup source = some id then none
        else unanswered g (.operation id token) := by
      rw [unanswered_operation, devices, flights_completeInFlight, unanswered_operation,
        ← same.inFlight, ← same.byAddr]
      cases before.devices.byId.lookup id with
      | none => simp
      | some dev =>
        by_cases here : before.devices.byAddr.lookup source = some id
        · simp only [here, if_true, Option.map_some, Option.bind_some, Table.lookup_erase_if, and_true]
          split <;> rfl
        · simp [here]
    constructor
    · intro ends
      rw [left, if_pos ⟨operation_token ends.1, ends.2.2.2⟩]
    · intro other
      rw [left]
      split
      · rename_i found
        cases waits : unanswered g (.operation id token) with
        | none => rfl
        | some named =>
          have same := operation_token waits
          exact absurd ⟨by rw [waits, ← same, found.1], none_, absent, found.2⟩ other
      · rfl

/-- **What a Reset ends**: once it was handled, the exchanges that the handler
finds are no longer pending, and all others are as they were. -/
private theorem unanswered_after (blocks : t.blockWrites = g.blockWrites) (asked : t.asked = g.asked)
    (handled : Handled g.server (reset m) source t.server) (done : t.server.recv = .idle)
    (y : Exchange) :
    (Ends g source y → unanswered t y = none) ∧ (¬ Ends g source y → unanswered t y = unanswered g y) := by
  cases handled with
  | early same position =>
    rcases position with position | ⟨endpoint, position⟩ | position <;>
      (rw [position] at done
       cases done)
  | write same none_ position | block same none_ absent position =>
    rw [position] at done
    cases done
  | inFlight before same none_ absent after =>
    rw [after] at done
    cases done
  | pending same session position =>
    refine ⟨fun ends => ?_, fun _ => unanswered_same blocks asked same y⟩
    rw [ends.2.1] at session
    cases session
  | written before channel same none_ stored log after =>
    exact unanswered_written blocks asked same none_ stored after y
  | completed before same none_ absent after =>
    exact unanswered_completed blocks asked same none_ absent after y

/-- What the handler ends, it fails. -/
private theorem failed_of_ends {x : Exchange} (channels : Channels g.server.core)
    (listening : Listening g.server) (handled : Handled g.server (reset m) source t.server)
    (done : t.server.recv = .idle) (ends : Ends g source x) (ended : unanswered t x = none) :
    Failed g t x := by
  cases handled with
  | early same position =>
    rcases position with position | ⟨endpoint, position⟩ | position <;>
      (rw [position] at done
       cases done)
  | write same none_ position | block same none_ absent position =>
    rw [position] at done
    cases done
  | inFlight before same none_ absent after =>
    rw [after] at done
    cases done
  | pending same session position =>
    rw [ends.2.1] at session
    cases session
  | written before channel same none_ stored log after =>
    cases x with
    | session token => exact ends.2.2
    | write i =>
      obtain ⟨task, found, held, at_, here⟩ := write_waits ends.1
      rw [stored] at here
      cases here
      refine ⟨ended, task, zeroToken, channel, held, at_, ?_⟩
      have waits : g.server.boot.oneshots.cell channel = .waiting :=
        (channels.stored zeroToken channel stored).2.1
      rw [after]
      simp only [BootstrapRegistry.completeWriteAck, stored, Oneshots.send]
      rw [Oneshots.resolve_cell_waiting _ waits, if_pos rfl]
    | block i =>
      have absent : g.server.boot.writeAcks.lookup zeroToken = none := ends.2.2
      rw [stored] at absent
      cases absent
    | operation id token =>
      have absent : g.server.boot.writeAcks.lookup zeroToken = none := ends.2.2.1
      rw [stored] at absent
      cases absent
  | completed before same none_ absent after =>
    cases x with
    | session token => exact ends.2.2
    | write i =>
      obtain ⟨task, channel, -, -, stored⟩ := write_waits ends.1
      rw [absent] at stored
      cases stored
    | block i =>
      obtain ⟨task, channel, held, at_, stored⟩ := block_waits ends.1
      refine ⟨ended, task, channel, held, at_, ?_⟩
      have waits : before.blockChannels.cell channel = .waiting := by
        rw [same.blockChannels]
        exact listening.waiting zeroToken channel stored
      have dropped : t.server.blockChannels = (before.disarmBlock zeroToken).blockChannels := by
        rw [after]
        unfold Server.answer
        split <;> rfl
      rw [← same.blockAcks] at stored
      rw [dropped]
      simp only [Server.disarmBlock, stored, Oneshots.drop]
      rw [Oneshots.resolve_cell_waiting _ waits, if_pos rfl]
    | operation id token =>
      cases operation_token ends.1
      have flying := ends.1
      rw [unanswered_operation] at flying
      obtain ⟨flights, stored, found⟩ := Option.bind_eq_some_iff.mp flying
      obtain ⟨op, flies, -⟩ := Option.map_eq_some_iff.mp found
      obtain ⟨dev, held, rfl⟩ := Option.map_eq_some_iff.mp stored
      refine ⟨ended, dev, op, held, flies, ?_⟩
      have index : before.devices.byAddr.lookup source = some id := by
        rw [same.byAddr]
        exact ends.2.2.2
      have now := same.inFlight id
      rw [held] at now
      obtain ⟨touched, stored', flights⟩ := Option.map_eq_some_iff.mp now
      have taken : (before.devices.completeInFlight source zeroToken).1 = some op := by
        simp only [completeInFlight, index, stored', flights]
        exact flies
      rw [after, taken]
      simp only [Server.answer]
      rw [← same.replies]
      rfl

/-- **A Reset fails the request it rejects exactly if the request has the zero
token and is the only one the handler finds there.** -/
theorem reset_rejects_iff {x : Exchange} {token : Token}
    (reached : (Gateway.machine env).Reaches Machine.always g) (request : ∀ token, x ≠ .session token)
    (sent : pending g x = some (token, source))
    (handled : (handling env g (reset m) source).Reaches Machine.always t)
    (done : t.server.recv = .idle) : Rejected g t x ↔ Foremost g source x := by
  obtain ⟨blocks, asked, summary⟩ := reached_handled handled
  have after := unanswered_after blocks asked summary done
  have waits : unanswered g x = some token := by
    rw [unanswered, sent]
    rfl
  constructor
  · rintro ⟨failed, others⟩
    have ended : unanswered t x = none := by
      cases x with
      | session named => exact absurd rfl (request named)
      | write i | block i | operation id named => exact failed.1
    have ends : Ends g source x := by
      by_contra other
      rw [(after x).2 other, waits] at ended
      cases ended
    refine ⟨ends, fun y found => ?_⟩
    by_contra apart
    have kept := others y apart
    rw [(after y).1 found, found.1] at kept
    cases kept
  · rintro ⟨ends, alone⟩
    have reachedServer := reached_server reached
    refine ⟨failed_of_ends (reached_channels reachedServer) (listening_reached reachedServer) summary
      done ends ((after x).1 ends), fun y apart => (after y).2 fun found => apart (alone y found)⟩

/-! ## Operations of the mower -/

/-- The state after a run on nothing persisted. -/
def ran (actions : List GatewayAction) : Gateway :=
  ((Gateway.machine Peer.env).exec Machine.always Peer.gateway actions).getD Peer.gateway

private theorem reached_ran {actions : List GatewayAction}
    (possible : ((Gateway.machine Peer.env).exec Machine.always Peer.gateway actions).isSome = true) :
    (Gateway.machine Peer.env).Reaches Machine.always (ran actions) := by
  obtain ⟨last, ended⟩ := Option.isSome_iff_exists.mp possible
  have same : ran actions = last := by
    rw [ran, ended]
    rfl
  rw [same]
  exact Machine.reaches_of_exec (.start Peer.start_gateway) ended

/-- An address where nobody is registered. -/
def nowhere : SocketAddr := .v6 0xfc000006010000000000000000000009 5683 0 0

/-- The operation an IPC read becomes. -/
def readOp (g : Gateway) : PendingOperation :=
  { PendingOperation.new g.nextOpId (.read ⟨3, 0, 0⟩) g.channels g.server.clock with attempts := 1 }

/-- An IPC read is handed over and dispatched. -/
private theorem read_dispatched (reached : (Gateway.machine Peer.env).Reaches Machine.always g)
    (empty : g.queue = []) (addr : SocketAddr) :
    ∃ g', (Gateway.machine Peer.env).Reaches Machine.always g' ∧ g'.queue = [] ∧
      g'.server = { g.server with
        devices := g.server.devices.placeInFlight addr (tokenOfId g.nextOpId) (readOp g) } ∧
      g'.blockWrites = g.blockWrites ∧ g'.nextOpId = g.nextOpId + 1 ∧ g'.channels = g.channels + 2 := by
  let asked : Gateway :=
    { g with
      nextOpId := g.nextOpId + 1
      channels := g.channels + 2
      queue := [(addr, { PendingOperation.new g.nextOpId (.read ⟨3, 0, 0⟩) g.channels g.server.clock with
        firstAckTx := none })] }
  have requested : (Gateway.machine Peer.env).step g (.request addr (.read ⟨3, 0, 0⟩) false) =
      some asked := by
    change g.step Peer.env (.request addr (.read ⟨3, 0, 0⟩) false) = some asked
    simp only [Gateway.step, empty, List.nil_append]
    rfl
  let token := tokenOfId g.nextOpId
  let packet := Client.buildRequest (.read ⟨3, 0, 0⟩) token g.midCounter
  let sent : Gateway :=
    { asked with
      queue := []
      midCounter := Client.skipMids g.midCounter 1
      server := { g.server with devices := g.server.devices.placeInFlight addr token (readOp g) }
      retransmissions := g.retransmissions.spawn ⟨addr, token, packet, 0, .send⟩ }
  have dispatched : (Gateway.machine Peer.env).step asked .dispatch = some sent := rfl
  exact ⟨sent, .step (.step reached trivial requested) trivial dispatched, rfl, rfl, rfl, rfl, rfl⟩

/-- IPC commands for an address where nobody is registered use up operation ids
and leave the server alone. -/
private theorem count_up (reached : (Gateway.machine Peer.env).Reaches Machine.always g)
    (empty : g.queue = []) (unknown : g.server.devices.byAddr.lookup nowhere = none) (n : Nat) :
    ∃ g', (Gateway.machine Peer.env).Reaches Machine.always g' ∧ g'.queue = [] ∧
      g'.server = g.server ∧ g'.blockWrites = g.blockWrites ∧ g'.nextOpId = g.nextOpId + UInt32.ofNat n ∧
      g'.channels = g.channels + 2 * n := by
  induction n with
  | zero => exact ⟨g, reached, empty, rfl, rfl, by simp, rfl⟩
  | succ n ih =>
    obtain ⟨before, reached, empty, server, blocks, ids, channels⟩ := ih
    obtain ⟨after, reached, empty, server', blocks', ids', channels'⟩ :=
      read_dispatched reached empty nowhere
    refine ⟨after, reached, empty, ?_, blocks'.trans blocks, ?_, by omega⟩
    · rw [server', server]
      simp only [placeInFlight, unknown]
    · rw [ids', ids, UInt32.ofNat_add, UInt32.add_assoc]
      rfl

/-- The mower registered and was sent a factory reset. -/
def mowerReset : Gateway := ran Peer.resetInFlight

/-- The operation that gets the id zero after `2 ^ 32 - 1` others. -/
def wrappedOp : PendingOperation :=
  { PendingOperation.new 0 (.read ⟨3, 0, 0⟩) (mowerReset.channels + 2 * (2 ^ 32 - 1))
      mowerReset.server.clock with attempts := 1 }

/-- It is in flight to the mower. -/
def wrappedServer : Server :=
  { mowerReset.server with
    devices := mowerReset.server.devices.placeInFlight Peer.addr zeroToken wrappedOp }

private theorem reached_wrapped : ∃ g, (Gateway.machine Peer.env).Reaches Machine.always g ∧
    g.server = wrappedServer := by
  have first : mowerReset.nextOpId + UInt32.ofNat (2 ^ 32 - 1) = 0 := by decide +kernel
  have empty : mowerReset.queue = [] := by
    have seen : mowerReset.queue.isEmpty = true := by decide +kernel
    exact List.isEmpty_iff.mp seen
  obtain ⟨before, reached, empty, server, -, ids, channels⟩ :=
    count_up (reached_ran (by decide +kernel)) empty (by decide +kernel) (2 ^ 32 - 1)
  obtain ⟨g, reached, -, placed, -⟩ := read_dispatched reached empty Peer.addr
  have zero : tokenOfId 0 = zeroToken := by decide
  refine ⟨g, reached, ?_⟩
  rw [placed, readOp, server, ids.trans first, channels, zero]
  rfl

/-- The position and whether device 1 has an operation in flight under a token. -/
def doneWith (token : Token) (flying : Bool) (u : Server) : Bool :=
  (match u.recv with
    | .idle => true
    | _ => false) &&
    decide (((u.devices.byId.lookup 1).bind fun dev => dev.inFlight.lookup token).isSome = flying)

private theorem doneWith_idle {token : Token} {flying : Bool} (seen : doneWith token flying u = true) :
    u.recv = .idle := by
  simp only [doneWith, Bool.and_eq_true] at seen
  obtain ⟨idle, -⟩ := seen
  split at idle
  · assumption
  · cases idle

/-- The operation with the id zero is failed by the Reset, and nothing else is. -/
theorem wrappedOp_rejected : ∃ g t, (Gateway.machine Peer.env).Reaches Machine.always g ∧
    pending g (.operation 1 zeroToken) = some (zeroToken, Peer.addr) ∧
    (handling Peer.env g (reset 1) Peer.addr).Reaches Machine.always t ∧ t.server.recv = .idle ∧
    Rejected g t (.operation 1 zeroToken) := by
  obtain ⟨g, reached, server⟩ := reached_wrapped
  have idle : g.server.recv = .idle := by
    have seen : (match wrappedServer.recv with
      | .idle => true
      | _ => false) = true := by decide +kernel
    rw [server]
    split at seen
    · assumption
    · cases seen
  obtain ⟨u, -, handled, seen⟩ := Machine.exec_reaches
    (InboundContact.handling Peer.env wrappedServer (reset 1) Peer.addr) Machine.always
    { wrappedServer with recv := .touch (reset 1) Peer.addr } (List.replicate 5 {})
    (doneWith zeroToken false) rfl (by decide +kernel)
  rw [← server] at handled
  obtain ⟨t, lifted, rfl⟩ := lift_handled idle handled
  have sent : pending g (.operation 1 zeroToken) = some (zeroToken, Peer.addr) := by
    simp only [pending, server]
    decide +kernel
  have noSession : g.server.boot.byToken.lookup zeroToken = none := by
    rw [server]
    decide +kernel
  have noWrite : g.server.boot.writeAcks.lookup zeroToken = none := by
    rw [server]
    decide +kernel
  have noBlock : g.server.blockAcks.lookup zeroToken = none := by
    rw [server]
    decide +kernel
  have index : g.server.devices.byAddr.lookup Peer.addr = some 1 := by
    rw [server]
    decide +kernel
  refine ⟨g, t, reached, sent, lifted, doneWith_idle seen,
    (reset_rejects_iff reached (fun _ other => by cases other) sent lifted
      (doneWith_idle seen)).mpr ⟨?_, ?_⟩⟩
  · exact ⟨by rw [unanswered, sent]; rfl, noSession, noWrite, index⟩
  · intro y ends
    cases y with
    | session token => exact ends.2.2.elim
    | write i =>
      obtain ⟨task, channel, -, -, stored⟩ := write_waits ends.1
      rw [noWrite] at stored
      cases stored
    | block i =>
      obtain ⟨task, channel, -, -, stored⟩ := block_waits ends.1
      rw [noBlock] at stored
      cases stored
    | operation id token =>
      have owner := ends.2.2.2
      rw [index] at owner
      cases owner
      rw [operation_token ends.1]

/-- The mower rejects the factory reset, whose message id is 1: the operation
stays in flight. -/
theorem factoryReset_unanswered : ∃ g t, (Gateway.machine Peer.env).Reaches Machine.always g ∧
    g.retransmissions.all.map (·.packet.messageId) = [1] ∧
    pending g (.operation 1 (tokenOfId 0x80000000)) = some (tokenOfId 0x80000000, Peer.addr) ∧
    (handling Peer.env g (reset 1) Peer.addr).Reaches Machine.always t ∧ t.server.recv = .idle ∧
    ¬ Rejected g t (.operation 1 (tokenOfId 0x80000000)) := by
  have idle : mowerReset.server.recv = .idle := by
    have seen : (match mowerReset.server.recv with
      | .idle => true
      | _ => false) = true := by decide +kernel
    split at seen
    · assumption
    · cases seen
  obtain ⟨u, -, handled, seen⟩ := Machine.exec_reaches
    (InboundContact.handling Peer.env mowerReset.server (reset 1) Peer.addr) Machine.always
    { mowerReset.server with recv := .touch (reset 1) Peer.addr } (List.replicate 5 {})
    (doneWith (tokenOfId 0x80000000) true) rfl (by decide +kernel)
  obtain ⟨t, lifted, rfl⟩ := lift_handled idle handled
  refine ⟨mowerReset, t, reached_ran (by decide +kernel), by decide +kernel, by decide +kernel, lifted,
    doneWith_idle seen, fun rejected => ?_⟩
  have gone : unanswered t (.operation 1 (tokenOfId 0x80000000)) = none := rejected.1.1
  simp only [doneWith, Bool.and_eq_true, decide_eq_true_eq] at seen
  obtain ⟨op, flies⟩ := Option.isSome_iff_exists.mp seen.2
  obtain ⟨dev, stored, flies⟩ := Option.bind_eq_some_iff.mp flies
  rw [unanswered_operation, stored, Option.map_some, Option.bind_some, flies] at gone
  cases gone

end Lwm2mServer.Resets
