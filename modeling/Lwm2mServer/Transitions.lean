import Lwm2mServer.Server

/-! What one step of the server can do to inclusion, said once.

`Core` keeps of the server what the bootstrap protocol is about: the bootstrap
registry, the position of the receive loop, the write phases and the history.
`Transition` lists every way a step can change it, with the guard under which
the code takes that branch; device registry, timers, block transfers and
replies appear there only as `quiet` steps. `step_transition` is the
simulation, and every invariant over runs goes through `core_invariant`. -/
namespace Lwm2mServer
open Library

/-- The part of the server that inclusion depends on. -/
structure Core where
  boot : BootstrapRegistry
  recv : Recv
  phases : Tasks WritePhase
  log : List Event

def Server.core (s : Server) : Core := ⟨s.boot, s.recv, s.phases, s.log⟩

/-- Events that only report what the device registry did. -/
def Event.Minor : Event → Bool
  | .connectionStatus .. => true
  | _ => false

theorem minor_events {holds : Event → Prop} {events : List Event}
    (minor : ∀ event ∈ events, event.Minor)
    (status : ∀ endpoint online, holds (.connectionStatus endpoint online)) :
    ∀ event ∈ events, holds event := by
  intro event member
  have quiet := minor event member
  cases event with
  | connectionStatus endpoint online => exact status endpoint online
  | _ => cases quiet

/-- The receive loop has not yet committed itself to anything: it is neither
carrying out a decision it has made nor holding an unchecked payload. -/
def Recv.Plain : Recv → Bool
  | .consume .. | .acknowledge .. | .begin .. | .ackValidate .. | .ackReject ..
  | .dispatchReset .. | .scheduleRemoval .. => false
  | _ => true

/-- The endpoint whose payload is in the certificate cache without having
passed the check. -/
def Recv.unchecked : Recv → Option String
  | .ackValidate endpoint _ | .ackReject endpoint => some endpoint
  | _ => none

theorem Recv.unchecked_plain {recv : Recv} (plain : recv.Plain) : recv.unchecked = none := by
  cases recv <;> first | rfl | cases plain

/-- The positions `handle_packet` can lead to. A handler that answers at once
does not have an inclusion to decide on. -/
theorem handlePacket_cases (holds : Recv → Prop) (env : Env) (packet : Packet) (addr : SocketAddr)
    (idle : holds .idle)
    (respond : ∀ response rest, (∀ endpoint, rest ≠ .decideInclusion endpoint) →
      holds (.respond response addr rest))
    (announce : ∀ endpoint, holds (.announce endpoint packet addr))
    (register : ∀ endpoint reg, holds (.register endpoint reg packet addr))
    (ack : holds (.ackWrite packet addr)) (rst : holds (.rstPending packet addr)) :
    holds (handlePacket env packet addr) := by
  have post : holds (handlePost env packet addr) := by
    unfold handlePost
    generalize endpointOf packet = endpoint
    cases postPath packet with
    | bootstrap =>
      dsimp only
      split
      · exact respond _ _ nofun
      · exact announce endpoint
    | registration =>
      dsimp only
      split
      · exact respond _ _ nofun
      · exact register endpoint _
    | _ => exact respond _ _ nofun
  unfold handlePacket
  cases packet.type with
  | acknowledgement => exact ack
  | reset => exact rst
  | _ =>
    cases packet.code with
    | request method =>
      cases method with
      | post => exact post
      | delete => exact respond _ _ nofun
      | _ => exact idle
    | _ => exact idle

theorem handlePacket_plain (env : Env) (packet : Packet) (addr : SocketAddr) :
    (handlePacket env packet addr).Plain :=
  handlePacket_cases (fun recv => recv.Plain) env packet addr rfl (fun _ _ _ => rfl) (fun _ => rfl)
    (fun _ _ => rfl) rfl rfl

theorem AfterResponse.resume_plain (rest : AfterResponse) (addr : SocketAddr) :
    (rest.resume addr).Plain := by
  cases rest with
  | report payload =>
    simp only [resume]
    split <;> rfl
  | _ => rfl

/-! ## Steps of a write phase -/

/-- Everything a step of a write-phase task can do. The registry fields a step
leaves alone are visibly those of `boot`. -/
inductive PhaseMove (env : Env) (boot : BootstrapRegistry) (i : Nat) (task : WritePhase) :
    PhaseOutcome → Prop where
  | alloc (pc : task.pc = .alloc step security) :
      PhaseMove env boot i task
        ⟨{ boot with tokenCounter := boot.tokenCounter + 1, midCounter := boot.midCounter + 1 },
          .register step (tokenOfId boot.tokenCounter) packet,
          [.allocated (tokenOfId boot.tokenCounter)]⟩
  | allocFailed (pc : task.pc = .alloc step security) :
      PhaseMove env boot i task
        ⟨{ boot with tokenCounter := boot.tokenCounter + 1, midCounter := boot.midCounter + 1 },
          .releaseId false,
          [.ended i task.endpoint (.error e), .allocated (tokenOfId boot.tokenCounter)]⟩
  | readCert (pc : task.pc = .getCert) (held : boot.certCache.lookup task.endpoint = some payload) :
      PhaseMove env boot i task ⟨boot, .encrypt payload, []⟩
  | encrypt (pc : task.pc = .encrypt payload) (parsed : env.devicePubkey payload = .ok cert) :
      PhaseMove env boot i task
        ⟨boot, .alloc .putSecurity security, [.encrypted i task.endpoint cert]⟩
  | encryptFailed (pc : task.pc = .encrypt payload) (parsed : env.devicePubkey payload = .ok cert) :
      PhaseMove env boot i task
        ⟨boot, .releaseId false,
          [.ended i task.endpoint (.error e), .encrypted i task.endpoint cert]⟩
  | register (pc : task.pc = .register step token packet) :
      PhaseMove env boot i task
        ⟨{ boot with
            writeAcks := boot.writeAcks.insert token boot.oneshots.next
            oneshots := (boot.dropWriteAck token).channel.2 },
          .send step token boot.oneshots.next packet 0,
          [.registered i step token boot.oneshots.next]⟩
  | send (pc : task.pc = .send step token channel packet attempt) :
      PhaseMove env boot i task
        ⟨boot, .wait step token channel packet attempt, [.sent i step token]⟩
  | acknowledged (pc : task.pc = .wait step token channel packet attempt)
      (held : boot.oneshots.cell channel = .sent true) (follows : step.following = some next)
      (goes : after = .alloc next [] ∨ next = .putSecurity ∧ after = .getCert) :
      PhaseMove env boot i task ⟨boot, after, []⟩
  | completed (pc : task.pc = .wait .postBs token channel packet attempt)
      (held : boot.oneshots.cell channel = .sent true) :
      PhaseMove env boot i task ⟨boot, .reportOnline, [.ended i task.endpoint (.ok ())]⟩
  | retransmit (pc : task.pc = .wait step token channel packet attempt)
      (within : attempt < maxRetransmit) :
      PhaseMove env boot i task ⟨boot, .send step token channel packet (attempt + 1), []⟩
  | giveUp (pc : task.pc = .wait step token channel packet attempt) :
      PhaseMove env boot i task ⟨boot, .cancel step token, []⟩
  | cancel (pc : task.pc = .cancel step token) :
      PhaseMove env boot i task
        ⟨{ boot with
            writeAcks := boot.writeAcks.erase token
            oneshots := boot.dropWriteAck token },
          .releaseId false, [.ended i task.endpoint (.error e)]⟩
  /-- The step fails without touching the registry. -/
  | fail (running : task.pc.Running) :
      PhaseMove env boot i task ⟨boot, .releaseId false, [.ended i task.endpoint (.error e)]⟩
  | reportOnline (pc : task.pc = .reportOnline) :
      PhaseMove env boot i task ⟨boot, .releaseId true, [.connectionStatus task.endpoint true]⟩
  | release (pc : task.pc = .releaseId success)
      (released : boot.removeIncludableId task.endpoint =
        { boot with includableIds, includableById }) :
      PhaseMove env boot i task
        ⟨{ boot with includableIds, includableById }, if success then .mark else .finished, []⟩
  | mark (pc : task.pc = .mark) :
      PhaseMove env boot i task
        ⟨{ boot with included := insert task.endpoint boot.included }, .finished,
          [.recorded i task.endpoint]⟩

theorem BootstrapRegistry.dropWriteAck_next (boot : BootstrapRegistry) (token : Token) :
    (boot.dropWriteAck token).next = boot.oneshots.next := by
  unfold dropWriteAck
  split
  · exact Oneshots.resolve_next ..
  · rfl

theorem BootstrapRegistry.removeIncludableId_fields (boot : BootstrapRegistry) (endpoint : String) :
    ∃ includableIds includableById,
      boot.removeIncludableId endpoint = { boot with includableIds, includableById } := by
  unfold removeIncludableId
  split
  · exact ⟨_, _, rfl⟩
  · exact ⟨_, _, rfl⟩

/-- The task's step function does nothing else. -/
theorem phase_move {env : Env} {boot : BootstrapRegistry} {i : Nat} {task : WritePhase}
    {choice : Choice} {outcome : PhaseOutcome}
    (ran : task.step env boot i choice = some outcome) : PhaseMove env boot i task outcome := by
  unfold WritePhase.step at ran
  split at ran
  case h_1 step security pc =>
    simp only [BootstrapRegistry.allocTokenMid, BootstrapRegistry.allocInner] at ran
    split at ran
    · cases ran
      exact .allocFailed pc
    · cases ran
      exact .alloc pc
  case h_2 pc =>
    split at ran
    · cases ran
      exact .fail (by rw [pc]; rfl)
    · rename_i payload held
      cases ran
      exact .readCert pc held
  case h_3 payload pc =>
    split at ran
    · cases ran
      exact .fail (by rw [pc]; rfl)
    · rename_i cert parsed
      split at ran
      · cases ran
        exact .encryptFailed pc parsed
      · cases ran
        exact .encrypt pc parsed
  case h_4 step token packet pc =>
    cases ran
    have move : PhaseMove env boot i task _ := .register pc
    rw [← boot.dropWriteAck_next token] at move
    exact move
  case h_5 step token channel packet attempt pc =>
    split at ran
    · cases ran
      exact .send pc
    · cases ran
      exact .fail (by rw [pc]; rfl)
  case h_6 step token channel packet attempt pc =>
    split at ran
    · rename_i held
      cases ran
      unfold PhaseOutcome.advanced
      split
      · rename_i follows
        exact .acknowledged pc held follows (.inr ⟨rfl, rfl⟩)
      · rename_i follows
        exact .acknowledged pc held follows (.inl rfl)
      · rename_i follows
        cases step <;> cases follows
        exact .completed pc held
    · cases ran
      exact .fail (by rw [pc]; rfl)
    · cases ran
      exact .fail (by rw [pc]; rfl)
    · split at ran
      · split at ran
        · rename_i within
          cases ran
          exact .retransmit pc within
        · cases ran
          exact .giveUp pc
      · cases ran
  case h_7 step token pc =>
    cases ran
    exact .cancel pc
  case h_8 pc =>
    cases ran
    exact .reportOnline pc
  case h_9 success pc =>
    obtain ⟨ids, byId, released⟩ := boot.removeIncludableId_fields task.endpoint
    rw [released] at ran
    cases ran
    exact .release pc released
  case h_10 pc =>
    cases ran
    exact .mark pc
  case h_11 => cases ran

/-! ## Steps of the server -/

/-- Everything a step can do to the core. -/
inductive Transition (env : Env) (c : Core) : Action → Core → Prop where
  | quiet (moves : recv = c.recv ∨ recv.Plain ∧ c.recv.unchecked = none)
      (minor : ∀ event ∈ events, Event.Minor event) :
      Transition env c action { c with recv, log := events ++ c.log }
  | announceKnown {id : UInt32} (position : c.recv = .announce endpoint packet addr)
      (known : c.boot.includableIds.lookup endpoint = some id) :
      Transition env c (.recv choice)
        { c with
          recv := .askApproved endpoint packet addr
          log := .announced endpoint id false :: c.log }
  | announceFresh (position : c.recv = .announce endpoint packet addr)
      (unknown : c.boot.includableIds.lookup endpoint = none) :
      Transition env c (.recv choice)
        { c with
          boot := { c.boot with
            nextIncludableId := c.boot.nextIncludableId + 1
            includableIds := c.boot.includableIds.insert endpoint c.boot.nextIncludableId
            includableById := c.boot.includableById.insert c.boot.nextIncludableId endpoint }
          recv := .askApproved endpoint packet addr
          log := .announced endpoint c.boot.nextIncludableId true :: c.log }
  | findApproved (position : c.recv = .askApproved endpoint packet addr)
      (approved : endpoint ∈ c.boot.approved) :
      Transition env c (.recv choice) { c with recv := .consume endpoint packet addr }
  | consume (position : c.recv = .consume endpoint packet addr) :
      Transition env c (.recv choice)
        { c with
          boot := { c.boot with approved := c.boot.approved.erase endpoint }
          recv := .acknowledge endpoint packet addr
          log := .consumed endpoint :: c.log }
  | startPhase (position : c.recv = .acknowledge endpoint packet addr) :
      Transition env c (.recv choice)
        { c with
          recv := .idle
          phases := c.phases.spawn ⟨endpoint, addr, serverUri, .alloc .deleteServer []⟩
          log := .started c.phases.count endpoint :: c.log }
  | missCert (position : c.recv = .askCert endpoint addr)
      (missing : c.boot.certCache.lookup endpoint = none) :
      Transition env c (.recv choice) { c with recv := .begin endpoint addr }
  | begin (position : c.recv = .begin endpoint addr)
      (free : c.boot.byEndpoint.lookup endpoint = none) :
      Transition env c (.recv choice)
        { c with
          boot := { c.boot with
            tokenCounter := c.boot.tokenCounter + 1
            midCounter := c.boot.midCounter + 1
            byEndpoint := c.boot.byEndpoint.insert endpoint (tokenOfId c.boot.tokenCounter)
            byToken := c.boot.byToken.insert (tokenOfId c.boot.tokenCounter) ⟨endpoint, now, none⟩ }
          recv := .sendGet request addr
          log := .allocated (tokenOfId c.boot.tokenCounter) :: c.log }
  | answer (position : c.recv = (if success then .ackWrite packet addr else .rstWrite packet addr))
      (held : c.boot.writeAcks.lookup (tokenArray packet.token) = some channel) :
      Transition env c (.recv choice)
        { c with
          boot := { c.boot with
            writeAcks := c.boot.writeAcks.erase (tokenArray packet.token)
            oneshots := c.boot.oneshots.send channel success }
          recv := .idle
          log := .answered channel (tokenArray packet.token) success packet.code :: c.log }
  | complete (position : c.recv = .ackComplete packet)
      (held : c.boot.byToken.lookup (tokenArray packet.token) = some session) :
      Transition env c (.recv choice)
        { c with
          boot := { c.boot with
            byToken := c.boot.byToken.erase (tokenArray packet.token)
            byEndpoint := c.boot.byEndpoint.erase session.endpoint
            certCache := c.boot.certCache.insert session.endpoint packet.payload }
          recv := .ackValidate session.endpoint packet.payload
          log := .cached session.endpoint packet.payload :: c.log }
  | accept (position : c.recv = .ackValidate endpoint payload)
      (valid : env.checkPayload payload endpoint = .ok ()) :
      Transition env c (.recv choice)
        { c with recv := .idle, log := .verdict endpoint payload true :: c.log }
  | decline (position : c.recv = .ackValidate endpoint payload)
      (invalid : env.checkPayload payload endpoint ≠ .ok ()) :
      Transition env c (.recv choice)
        { c with recv := .ackReject endpoint, log := .verdict endpoint payload false :: c.log }
  | reject (position : c.recv = .ackReject endpoint) :
      Transition env c (.recv choice)
        { c with
          boot := { c.boot with certCache := c.boot.certCache.erase endpoint }
          recv := .idle }
  | refuse (position : c.recv = .askIncluded endpoint addr) (absent : endpoint ∉ c.boot.included) :
      Transition env c (.recv choice)
        { c with recv := .dispatchReset endpoint addr, log := .refused endpoint :: c.log }
  | dispatchReset (position : c.recv = .dispatchReset endpoint addr) :
      Transition env c (.recv choice)
        { c with
          recv := .scheduleRemoval endpoint addr
          log := .resetDispatched endpoint addr (.execute factoryResetPath none) :: c.log }
  | scheduleRemoval (position : c.recv = .scheduleRemoval endpoint addr) :
      Transition env c (.recv choice)
        { c with recv := .idle, log := .removalScheduled endpoint addr :: c.log }
  | phase (held : c.phases.get? i = some task) (move : PhaseMove env c.boot i task outcome) :
      Transition env c (.phase i choice)
        { c with
          boot := outcome.boot
          phases := c.phases.update i { task with pc := outcome.pc }
          log := outcome.events ++ c.log }
  | approve {id : UInt32} (assigned : c.boot.includableById.lookup id = some endpoint) :
      Transition env c (.includeDevice id)
        { c with
          boot := { c.boot with approved := insert endpoint c.boot.approved }
          log := .approved id endpoint :: c.log }
  | exclude :
      Transition env c (.exclusion task)
        { c with
          boot := { c.boot with included := c.boot.included.erase device }
          log := .excluded device :: c.log }
  | expire (expired : c.boot.expireStale now maxSecs = { c.boot with byToken, byEndpoint }) :
      Transition env c .housekeeping { c with boot := { c.boot with byToken, byEndpoint } }

theorem BootstrapRegistry.expireStale_fields (boot : BootstrapRegistry) (now : Instant)
    (maxSecs : Nat) :
    ∃ byToken byEndpoint, boot.expireStale now maxSecs = { boot with byToken, byEndpoint } := by
  unfold expireStale
  dsimp only
  generalize ((boot.byToken.entries.filter fun entry =>
    maxSecs < elapsedSecs now entry.2.startedAt).map (·.1)) = tokens
  induction tokens generalizing boot with
  | nil => exact ⟨boot.byToken, boot.byEndpoint, rfl⟩
  | cons token rest ih =>
    have one : ∃ byToken byEndpoint, boot.expireOne token = { boot with byToken, byEndpoint } := by
      unfold expireOne
      split <;> exact ⟨_, _, rfl⟩
    obtain ⟨byToken, byEndpoint, expired⟩ := one
    obtain ⟨byToken', byEndpoint', rest⟩ := ih (boot.expireOne token)
    exact ⟨byToken', byEndpoint', by rw [List.foldl_cons, rest, expired]⟩

/-! ## The simulation -/

section Simulation
variable {env : Env} {s next : Server} {action : Action} {choice : Choice}

/-- A step that leaves the registry and the phases alone and logs nothing of
interest is quiet. -/
private theorem quiet_of (events : List Event) (minor : ∀ event ∈ events, event.Minor)
    (moves : next.recv = s.recv ∨ next.recv.Plain ∧ s.recv.unchecked = none)
    (same : next.core = { s.core with recv := next.recv, log := events ++ s.log }) :
    Transition env s.core action next.core := by
  rw [same]
  exact .quiet moves minor

/-- The receive loop moves on from a position where it holds nothing. -/
private theorem quiet_move {recv : Recv} (position : s.recv = recv) (checked : recv.unchecked = none)
    (plain : next.recv.Plain) (same : next.core = { s.core with recv := next.recv }) :
    Transition env s.core action next.core := by
  refine quiet_of [] (by simp) (.inr ⟨plain, ?_⟩) same
  rw [position]
  exact checked

private theorem quiet_stay (same : next.core = s.core) : Transition env s.core action next.core := by
  have recv : next.recv = s.recv := congrArg Core.recv same
  refine quiet_of [] (by simp) (.inl recv) ?_
  rw [recv]
  exact same

@[simp] theorem answer_core (s : Server) (op : Option PendingOperation) (result : LwM2mResult) :
    (s.answer op result).core = s.core := by
  cases op <;> rfl

private theorem bootstrap_transition {endpoint : String} {packet : Packet} {addr : SocketAddr}
    (position : s.recv = .announce endpoint packet addr ∨ s.recv = .askApproved endpoint packet addr ∨
      s.recv = .consume endpoint packet addr ∨ s.recv = .acknowledge endpoint packet addr)
    (ran : s.recvStep env choice = some next) : Transition env s.core (.recv choice) next.core := by
  rcases position with position | position | position | position <;>
    simp only [Server.recvStep, position] at ran
  · cases known : s.boot.includableIds.lookup endpoint with
    | some id =>
      simp only [BootstrapRegistry.ensureIncludableId, known] at ran
      cases ran
      exact .announceKnown position known
    | none =>
      simp only [BootstrapRegistry.ensureIncludableId, known] at ran
      cases ran
      exact .announceFresh position known
  · cases ran
    by_cases approved : endpoint ∈ s.boot.approved
    · simp only [BootstrapRegistry.isApproved, approved, decide_true, if_true]
      exact .findApproved position approved
    · exact quiet_move position rfl
        (by simp [BootstrapRegistry.isApproved, approved, Recv.Plain]) rfl
  · cases ran
    exact .consume position
  · split at ran
    · split at ran
      · cases ran
        exact quiet_move position rfl rfl rfl
      · cases ran
        exact .startPhase position
    · cases ran
      exact quiet_move position rfl rfl rfl

private theorem certificate_transition {endpoint : String} {addr : SocketAddr}
    (position : s.recv = .askCert endpoint addr ∨ s.recv = .begin endpoint addr)
    (ran : s.recvStep env choice = some next) : Transition env s.core (.recv choice) next.core := by
  rcases position with position | position <;> simp only [Server.recvStep, position] at ran
  · cases ran
    cases missing : s.boot.certCache.lookup endpoint with
    | none =>
      simp only [BootstrapRegistry.hasCert, missing, Option.isSome_none, Bool.false_eq_true, if_false]
      exact .missCert position missing
    | some payload =>
      exact quiet_move position rfl
        (by simp [BootstrapRegistry.hasCert, missing, Recv.Plain]) rfl
  · cases free : s.boot.byEndpoint.lookup endpoint with
    | none =>
      simp only [BootstrapRegistry.begin, BootstrapRegistry.allocInner, free, Option.isSome_none,
        Bool.false_eq_true, if_false] at ran
      cases ran
      exact .begin position free
    | some token =>
      simp only [BootstrapRegistry.begin, free, Option.isSome_some, if_true] at ran
      cases ran
      exact quiet_move position rfl rfl rfl

private theorem completeWriteAck_transition {packet : Packet} {addr : SocketAddr} (success : Bool)
    {missed : Recv} (plain : missed.Plain)
    (position : s.recv = (if success then .ackWrite packet addr else .rstWrite packet addr))
    (ran : (match s.boot.completeWriteAck (tokenArray packet.token) success with
      | (some channel, boot) => some { s with
          boot
          recv := .idle
          log := .answered channel (tokenArray packet.token) success packet.code :: s.log }
      | (none, boot) => some { s with boot, recv := missed }) = some next) :
    Transition env s.core (.recv choice) next.core := by
  cases held : s.boot.writeAcks.lookup (tokenArray packet.token) with
  | some channel =>
    simp only [BootstrapRegistry.completeWriteAck, held] at ran
    cases ran
    exact .answer position held
  | none =>
    simp only [BootstrapRegistry.completeWriteAck, held] at ran
    cases ran
    exact quiet_move position (by cases success <;> rfl) plain rfl

private theorem ackComplete_transition {packet : Packet} (position : s.recv = .ackComplete packet)
    (ran : s.recvStep env choice = some next) : Transition env s.core (.recv choice) next.core := by
  simp only [Server.recvStep, position] at ran
  cases held : s.boot.byToken.lookup (tokenArray packet.token) with
  | some session =>
    simp only [BootstrapRegistry.complete, held] at ran
    cases ran
    exact .complete position held
  | none =>
    simp only [BootstrapRegistry.complete, held] at ran
    cases ran
    exact quiet_move position rfl rfl rfl

private theorem ackValidate_transition {endpoint : String} {payload : Bytes}
    (position : s.recv = .ackValidate endpoint payload)
    (ran : s.recvStep env choice = some next) : Transition env s.core (.recv choice) next.core := by
  simp only [Server.recvStep, position] at ran
  split at ran
  · rename_i valid
    cases ran
    exact .accept position valid
  · rename_i invalid
    cases ran
    exact .decline position (by rw [invalid]; simp)

/-- The receive loop, one position after the other. -/
theorem recv_transition (ran : s.recvStep env choice = some next) :
    Transition env s.core (.recv choice) next.core := by
  cases position : s.recv with
  | announce => exact bootstrap_transition (.inl position) ran
  | askApproved => exact bootstrap_transition (.inr (.inl position)) ran
  | consume => exact bootstrap_transition (.inr (.inr (.inl position))) ran
  | acknowledge => exact bootstrap_transition (.inr (.inr (.inr position))) ran
  | askCert => exact certificate_transition (.inl position) ran
  | begin => exact certificate_transition (.inr position) ran
  | ackComplete => exact ackComplete_transition position ran
  | ackValidate => exact ackValidate_transition position ran
  | ackWrite packet addr =>
    simp only [Server.recvStep, position] at ran
    exact completeWriteAck_transition true rfl position ran
  | rstWrite packet addr =>
    simp only [Server.recvStep, position] at ran
    exact completeWriteAck_transition false rfl position ran
  | ackReject =>
    simp only [Server.recvStep, position] at ran
    cases ran
    exact .reject position
  | askIncluded endpoint addr =>
    simp only [Server.recvStep, position] at ran
    by_cases included : endpoint ∈ s.boot.included
    · simp only [BootstrapRegistry.isIncluded, included, decide_true, if_true] at ran
      cases ran
      exact quiet_move position rfl rfl rfl
    · simp only [BootstrapRegistry.isIncluded, included, decide_false, Bool.false_eq_true,
        if_false] at ran
      cases ran
      exact .refuse position included
  | idle =>
    simp only [Server.recvStep, position] at ran
    cases ran
  | touch packet addr =>
    simp only [Server.recvStep, position] at ran
    obtain ⟨⟨cameOnline, devices⟩, -, ran⟩ := Option.bind_eq_some_iff.mp ran
    cases ran
    cases cameOnline with
    | some endpoint => exact quiet_move position rfl rfl rfl
    | none => exact quiet_move position rfl (handlePacket_plain env packet addr) rfl
  | reportOnline endpoint packet addr =>
    simp only [Server.recvStep, position] at ran
    cases ran
    exact quiet_of [.connectionStatus endpoint true] (by simp [Event.Minor])
      (.inr ⟨handlePacket_plain env packet addr, by rw [position]; rfl⟩) rfl
  | respond response addr rest =>
    simp only [Server.recvStep, position] at ran
    cases ran
    refine quiet_move position rfl ?_ rfl
    dsimp only
    split
    · exact rest.resume_plain addr
    · rfl
  | dispatchReset endpoint addr =>
    simp only [Server.recvStep, position] at ran
    cases ran
    exact .dispatchReset position
  | scheduleRemoval endpoint addr =>
    simp only [Server.recvStep, position] at ran
    cases ran
    exact .scheduleRemoval position
  | register =>
    simp only [Server.recvStep, position] at ran
    obtain ⟨_, -, ran⟩ := Option.bind_eq_some_iff.mp ran
    cases ran
    exact quiet_move position rfl rfl rfl
  | drain =>
    simp only [Server.recvStep, position] at ran
    obtain ⟨_, -, ran⟩ := Option.bind_eq_some_iff.mp ran
    cases ran
    exact quiet_move position rfl rfl rfl
  | mergeReport =>
    simp only [Server.recvStep, position] at ran
    obtain ⟨_, -, ran⟩ := Option.bind_eq_some_iff.mp ran
    cases ran
    exact quiet_move position rfl rfl rfl
  | findReporter =>
    simp only [Server.recvStep, position] at ran
    obtain ⟨endpoint, -, ran⟩ := Option.bind_eq_some_iff.mp ran
    cases ran
    exact quiet_move position rfl (by cases endpoint <;> rfl) rfl
  | findVersions payload addr =>
    simp only [Server.recvStep, position] at ran
    obtain ⟨versions, -, ran⟩ := Option.bind_eq_some_iff.mp ran
    cases ran
    refine quiet_move position rfl ?_ rfl
    dsimp only
    split <;> rfl
  | ackPending =>
    simp only [Server.recvStep, position] at ran
    cases ran
    refine quiet_move position rfl ?_ rfl
    dsimp only
    split <;> rfl
  | rstPending =>
    simp only [Server.recvStep, position] at ran
    cases ran
    refine quiet_move position rfl ?_ rfl
    dsimp only
    split <;> rfl
  | ackBlock =>
    simp only [Server.recvStep, position] at ran
    split at ran <;> cases ran <;> exact quiet_move position rfl rfl rfl
  | ackInFlight =>
    simp only [Server.recvStep, position] at ran
    cases ran
    rw [answer_core]
    exact quiet_move position rfl rfl rfl
  | rstInFlight =>
    simp only [Server.recvStep, position] at ran
    cases ran
    rw [answer_core]
    exact quiet_move position rfl rfl rfl
  | _ =>
    simp only [Server.recvStep, position] at ran
    cases ran
    exact quiet_move position rfl rfl rfl

private theorem exclusion_transition {id : Nat} (ran : s.exclusionStep id = some next) :
    Transition env s.core (.exclusion id) next.core := by
  unfold Server.exclusionStep at ran
  obtain ⟨task, -, ran⟩ := Option.bind_eq_some_iff.mp ran
  dsimp only at ran
  split at ran
  · obtain ⟨found, -, ran⟩ := Option.bind_eq_some_iff.mp ran
    split at ran <;> cases ran <;> exact quiet_stay rfl
  · cases ran
    exact quiet_stay rfl
  · cases ran
    exact .exclude
  · cases ran
    exact quiet_stay rfl
  · cases ran
    exact quiet_stay rfl
  · cases ran
    exact quiet_stay rfl
  · cases ran

private theorem client_transition (call : ClientCall) :
    Transition env s.core (.client call) (s.clientStep call).core := by
  cases call with
  | completeInFlight addr token =>
    simp only [Server.clientStep, answer_core]
    exact quiet_stay rfl
  | reportOffline endpoint =>
    exact quiet_of [.connectionStatus endpoint false] (by simp [Event.Minor]) (.inl rfl) rfl
  | _ => exact quiet_stay rfl

/-- Every step of the server is a transition of its core. -/
theorem step_transition (ran : s.step env action = some next) :
    Transition env s.core action next.core := by
  cases action with
  | receive packet addr =>
    simp only [Server.step] at ran
    split at ran
    · rename_i position
      cases ran
      exact quiet_move position rfl rfl rfl
    · cases ran
      exact quiet_stay rfl
    · cases ran
  | recv choice => exact recv_transition ran
  | phase id choice =>
    obtain ⟨task, held, ran⟩ := Option.bind_eq_some_iff.mp ran
    obtain ⟨outcome, moved, ran⟩ := Option.bind_eq_some_iff.mp ran
    cases ran
    exact .phase held (phase_move moved)
  | includeDevice id =>
    simp only [Server.step, Server.includeStep] at ran
    cases assigned : s.boot.includableById.lookup id with
    | some endpoint =>
      simp only [BootstrapRegistry.approveInclusion, assigned] at ran
      cases ran
      exact .approve assigned
    | none =>
      simp only [BootstrapRegistry.approveInclusion, assigned] at ran
      cases ran
      exact quiet_stay rfl
  | excludeDevice device =>
    cases ran
    exact quiet_stay rfl
  | exclusion id => exact exclusion_transition ran
  | removal id =>
    simp only [Server.step, Server.removalStep] at ran
    obtain ⟨task, -, ran⟩ := Option.bind_eq_some_iff.mp ran
    split at ran <;> cases ran
    exact quiet_stay rfl
  | housekeeping =>
    cases ran
    simp only [Server.housekeepingStep]
    split
    · exact quiet_stay rfl
    · exact quiet_stay rfl
    · obtain ⟨byToken, byEndpoint, expired⟩ :=
        s.boot.expireStale_fields s.clock Housekeeping.bootstrapTimeoutSecs
      rw [expired]
      exact .expire expired
    · exact quiet_stay rfl
  | client call =>
    cases ran
    exact client_transition call
  | advance nanos =>
    cases ran
    exact quiet_stay rfl

end Simulation

/-! ## The other tasks -/

/-- What a step of any task but the receive loop and the write phases leaves
alone, and when it tells about a connection. -/
structure Elsewhere (s : Server) (action : Action) (next : Server) : Prop where
  recv : next.recv = s.recv ∨ ∃ packet addr, action = .receive (some packet) addr ∧
    s.recv = .idle ∧ next.recv = .touch packet addr
  phases : next.phases = s.phases
  log : ∃ events, next.log = events ++ s.log ∧ ∀ event ∈ events, event.Minor →
    ∃ endpoint, action = .client (.reportOffline endpoint)

private theorem elsewhere_same {s next : Server} {action : Action} (recv : next.recv = s.recv)
    (phases : next.phases = s.phases) (log : next.log = s.log) : Elsewhere s action next :=
  ⟨Or.inl recv, phases, [], log, fun _ member => by cases member⟩

private theorem elsewhere_event {s next : Server} {action : Action} (event : Event)
    (plain : event.Minor = false) (recv : next.recv = s.recv) (phases : next.phases = s.phases)
    (log : next.log = event :: s.log) : Elsewhere s action next := by
  refine ⟨Or.inl recv, phases, [event], log, fun other member minor => ?_⟩
  rw [List.mem_singleton.mp member, plain] at minor
  cases minor

theorem elsewhere_step {env : Env} {s next : Server} {action : Action}
    (ran : s.step env action = some next) (recv : ∀ choice, action ≠ .recv choice)
    (phase : ∀ i choice, action ≠ .phase i choice) : Elsewhere s action next := by
  cases action with
  | recv choice => exact (recv choice rfl).elim
  | phase i choice => exact (phase i choice rfl).elim
  | receive packet addr =>
    simp only [Server.step] at ran
    split at ran
    · rename_i packet idle
      cases ran
      exact ⟨Or.inr ⟨packet, addr, rfl, idle, rfl⟩, rfl, [], rfl, fun _ member => by cases member⟩
    · cases ran
      exact elsewhere_same rfl rfl rfl
    · cases ran
  | includeDevice id =>
    cases ran
    simp only [Server.includeStep]
    split
    · exact elsewhere_event _ rfl rfl rfl rfl
    · exact elsewhere_same rfl rfl rfl
  | exclusion i =>
    obtain ⟨task, held, ran⟩ := Option.bind_eq_some_iff.mp ran
    dsimp only at ran
    split at ran
    · obtain ⟨found, -, ran⟩ := Option.bind_eq_some_iff.mp ran
      split at ran <;> cases ran <;> exact elsewhere_same rfl rfl rfl
    · cases ran
      exact elsewhere_same rfl rfl rfl
    · cases ran
      exact elsewhere_event _ rfl rfl rfl rfl
    all_goals cases ran <;> exact elsewhere_same rfl rfl rfl
  | removal i =>
    obtain ⟨task, held, ran⟩ := Option.bind_eq_some_iff.mp ran
    split at ran <;> cases ran
    exact elsewhere_same rfl rfl rfl
  | housekeeping =>
    cases ran
    simp only [Server.housekeepingStep]
    split <;> exact elsewhere_same rfl rfl rfl
  | client call =>
    cases ran
    cases call with
    | reportOffline endpoint =>
      exact ⟨Or.inl rfl, rfl, [.connectionStatus endpoint false], rfl, fun _ _ _ => ⟨endpoint, rfl⟩⟩
    | completeInFlight addr token =>
      simp only [Server.clientStep, Server.answer]
      split <;> exact elsewhere_same rfl rfl rfl
    | _ => exact elsewhere_same rfl rfl rfl
  | _ =>
    cases ran
    exact elsewhere_same rfl rfl rfl

/-! ## Invariants over runs -/

/-- The core the server starts with. -/
def Core.Initial (c : Core) : Prop :=
  ∃ seed serverUri included,
    c = ⟨(BootstrapRegistry.new seed serverUri).loadIncluded included, .idle, {}, [.loaded included]⟩

/-- The history only grows. -/
theorem Transition.log_grows {env : Env} {c next : Core} {action : Action}
    (moved : Transition env c action next) : ∃ events, next.log = events ++ c.log := by
  cases moved with
  | quiet | phase => exact ⟨_, rfl⟩
  | findApproved | missCert | reject | expire => exact ⟨[], rfl⟩
  | _ => exact ⟨[_], rfl⟩

theorem Transition.mem_log {env : Env} {c next : Core} {action : Action} {event : Event}
    (moved : Transition env c action next) (member : event ∈ c.log) : event ∈ next.log := by
  obtain ⟨events, log⟩ := moved.log_grows
  rw [log]
  exact List.mem_append_right events member

/-- What holds of the initial cores and is kept by every transition that meets
the condition holds of the core of every state reached. -/
theorem core_invariant {env : Env} {s : Server} (condition : Core → Action → Prop)
    (holds : Core → Prop)
    (reached : (serverMachine env).Reaches (fun s action => condition s.core action) s)
    (initially : ∀ c, c.Initial → holds c)
    (kept : ∀ c action next, holds c → condition c action → Transition env c action next →
      holds next) : holds s.core := by
  refine reached.invariant (fun s => holds s.core) ?_ ?_
  · rintro s ⟨seed, serverUri, included, devices, clock, rfl⟩
    exact initially _ ⟨seed, serverUri, included, rfl⟩
  · intro s action next _ before allowed ran
    exact kept s.core action next.core before allowed (step_transition ran)

/-- The same for what holds of every event and its past. A step may use what
is known of the state it is taken from. -/
theorem history_invariant {env : Env} {s : Server} {guard : Server → Action → Prop}
    (reached : (serverMachine env).Reaches guard s) (holds : Event → List Event → Prop)
    (loaded : ∀ included, holds (.loaded included) [])
    (kept : ∀ s action (next : Core), (serverMachine env).Reaches guard s → guard s action →
      EveryEvent holds s.log → Transition env s.core action next → EveryEvent holds next.log) :
    EveryEvent holds s.log := by
  refine reached.invariant (fun s => EveryEvent holds s.log) ?_ ?_
  · rintro s ⟨seed, serverUri, included, devices, clock, rfl⟩
    exact ⟨loaded included, trivial⟩
  · intro s action next before every allowed ran
    exact kept s action next.core before allowed every (step_transition ran)

end Lwm2mServer
