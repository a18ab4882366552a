import Lwm2mServer.Gateway

/-! What one step of the gateway can do, said once: to the gateway's own state
(`GatewayMove`) and, by the one registry call a step makes, to the device
registry (`registryCall`). -/
namespace Lwm2mServer.GatewaySteps
open Library DeviceRegistry DeviceSteps RegistryIndexes

/-! ## The registry call of a server step -/

section Registry

/-- The call a step of the server makes on the device registry. -/
def registryCall (s : Server) : Action → Option Op
  | .recv _ =>
    match s.recv with
    | .touch _ addr => some (.touch s.clock addr)
    | .register endpoint reg _ addr => some (.register s.clock endpoint addr reg)
    | .renew newLifetime addr => some (.renewRegistration s.clock addr newLifetime)
    | .drain addr => some (.drainPending addr)
    | .findReporter _ addr => some (.endpointByAddr addr)
    | .findVersions _ addr => some (.objectVersionsByAddr addr)
    | .mergeReport report addr => some (.mergeDeviceStateByAddr addr report)
    | .deregister addr => some (.removeByAddr addr)
    | .ackInFlight packet addr | .rstInFlight packet addr =>
      some (.completeInFlight addr (tokenArray packet.token))
    | _ => none
  | .exclusion i => (s.exclusions.get? i).bind fun task =>
    match task.pc with
    | .findAddr => some (.addrAndIdByEndpoint task.device)
    | .deregister (some addr) => some (.removeByAddr addr)
    | _ => none
  | .removal i => (s.removals.get? i).map fun task => .removeByAddr task.addr
  | .housekeeping =>
    match s.housekeeping with
    | .expireDevices => some (.expireStale s.clock Housekeeping.graceSecs)
    | .timeoutOps => some (.timeoutInFlight s.clock Housekeeping.inFlightTimeoutSecs)
    | .expireSessions => none
    | .takePings => some (.takePingCandidates s.clock Housekeeping.offlinePingInterval
        Housekeeping.onlinePingInterval Housekeeping.offlinePingMaxDuration)
  | .client (.placeInFlight addr token op) => some (.placeInFlight addr token op)
  | .client (.completeInFlight addr token) => some (.completeInFlight addr token)
  | .client (.setDeviceOffline addr) => some (.setDeviceOffline s.clock addr)
  | _ => none

/-- The registry after the call, if there is one. -/
def after (r : DeviceRegistry) : Option Op → Option DeviceRegistry
  | none => some r
  | some op => r.apply op

variable {env : Env} {s next : Server} {action : Action} {choice : Choice}

private theorem answer_devices (s : Server) (op : Option PendingOperation) (result : LwM2mResult) :
    (s.answer op result).devices = s.devices := by
  cases op <;> rfl

private theorem recv_registry (ran : s.recvStep env choice = some next) :
    after s.devices (registryCall s (.recv choice)) = some next.devices := by
  cases position : s.recv with
  | touch packet addr =>
    simp only [Server.recvStep, position] at ran
    obtain ⟨result, called, ran⟩ := Option.bind_eq_some_iff.mp ran
    cases ran
    simp only [registryCall, position, after, apply, called]
    rfl
  | register endpoint reg packet addr =>
    simp only [Server.recvStep, position] at ran
    obtain ⟨result, called, ran⟩ := Option.bind_eq_some_iff.mp ran
    cases ran
    simp only [registryCall, position, after, apply, called]
    rfl
  | drain addr =>
    simp only [Server.recvStep, position] at ran
    obtain ⟨result, called, ran⟩ := Option.bind_eq_some_iff.mp ran
    cases ran
    simp only [registryCall, position, after, apply, called]
    rfl
  | findReporter payload addr =>
    simp only [Server.recvStep, position] at ran
    obtain ⟨result, called, ran⟩ := Option.bind_eq_some_iff.mp ran
    cases ran
    simp only [registryCall, position, after, apply, called]
    rfl
  | findVersions payload addr =>
    simp only [Server.recvStep, position] at ran
    obtain ⟨result, called, ran⟩ := Option.bind_eq_some_iff.mp ran
    cases ran
    simp only [registryCall, position, after, apply, called]
    rfl
  | mergeReport report addr =>
    simp only [Server.recvStep, position] at ran
    obtain ⟨result, called, ran⟩ := Option.bind_eq_some_iff.mp ran
    cases ran
    simp only [registryCall, position, after, apply, called]
    rfl
  | ackInFlight packet addr | rstInFlight packet addr =>
    simp only [Server.recvStep, position] at ran
    cases ran
    rw [answer_devices]
    simp only [registryCall, position, after, apply]
  | renew | deregister =>
    simp only [Server.recvStep, position] at ran
    cases ran
    simp only [registryCall, position, after, apply]
  | begin endpoint addr =>
    simp only [Server.recvStep, position] at ran
    simp only [registryCall, position, after]
    split at ran <;> cases ran <;> rfl
  | ackWrite packet addr | rstWrite packet addr | ackComplete packet | ackBlock packet addr =>
    simp only [Server.recvStep, position] at ran
    simp only [registryCall, position, after]
    split at ran <;> cases ran <;> rfl
  | askIncluded | ackValidate =>
    simp only [Server.recvStep, position] at ran
    simp only [registryCall, position, after]
    split at ran <;> cases ran <;> rfl
  | acknowledge =>
    simp only [Server.recvStep, position] at ran
    simp only [registryCall, position, after]
    split at ran
    · split at ran <;> cases ran <;> rfl
    · cases ran
      rfl
  | idle =>
    simp only [Server.recvStep, position] at ran
    cases ran
  | rstBlock =>
    simp only [Server.recvStep, position] at ran
    cases ran
    simp only [registryCall, position, after]
    rfl
  | _ =>
    simp only [Server.recvStep, position] at ran
    cases ran
    simp only [registryCall, position, after]

/-- **Every step of the server makes the registry call it is said to make**, or
leaves the registry alone. -/
theorem registry_step (ran : s.step env action = some next) :
    after s.devices (registryCall s action) = some next.devices := by
  cases action with
  | recv choice => exact recv_registry ran
  | receive packet addr =>
    simp only [Server.step] at ran
    split at ran <;> cases ran <;> rfl
  | phase i choice =>
    obtain ⟨task, held, ran⟩ := Option.bind_eq_some_iff.mp ran
    obtain ⟨outcome, moved, ran⟩ := Option.bind_eq_some_iff.mp ran
    cases ran
    rfl
  | includeDevice id =>
    cases ran
    simp only [Server.includeStep]
    split <;> rfl
  | exclusion i =>
    obtain ⟨task, held, ran⟩ := Option.bind_eq_some_iff.mp ran
    simp only [registryCall, held, Option.bind_some]
    dsimp only at ran
    split at ran
    · rename_i pc
      obtain ⟨found, called, ran⟩ := Option.bind_eq_some_iff.mp ran
      simp only [pc, after, apply, called]
      split at ran <;> cases ran <;> rfl
    all_goals
      rename_i pc
      simp only [pc, after, apply]
      cases ran <;> rfl
  | removal i =>
    obtain ⟨task, held, ran⟩ := Option.bind_eq_some_iff.mp ran
    simp only [registryCall, held, Option.map_some, after, apply]
    split at ran <;> cases ran
    rfl
  | housekeeping =>
    cases ran
    cases tick : s.housekeeping <;>
      simp only [Server.housekeepingStep, registryCall, tick, after, apply]
  | client call =>
    cases ran
    cases call with
    | completeInFlight addr token =>
      simp only [registryCall, after, apply, Server.clientStep, answer_devices]
    | _ => rfl
  | _ =>
    cases ran
    rfl

end Registry

/-! ## Steps of the gateway -/

/-- The server's steps that concern nothing else of the gateway. -/
def calm : Action → Bool
  | .receive .. | .recv _ | .phase .. | .housekeeping | .client _ => false
  | _ => true

/-- Everything a step of the gateway can do, leaving aside which sends are
prepared. -/
inductive GatewayMove (env : Env) (g : Gateway) : GatewayAction → Gateway → Prop where
  | setClass : GatewayMove env g (.setClass sender success) { g with trafficClass, armed }
  | receive (ran : g.server.step env (.receive packet addr) = some server) :
      GatewayMove env g (.server (.receive packet addr))
        { g with server, handled := (packet.map fun packet => (packet, addr)).or g.handled }
  | recv (ran : g.server.step env (.recv choice) = some server) :
      GatewayMove env g (.server (.recv choice)) { g.afterRecv with server, armed, transmissions }
  | phase (ran : g.server.step env (.phase i choice) = some server) :
      GatewayMove env g (.server (.phase i choice)) { g with server, armed, transmissions }
  | housekeeping (ran : g.server.step env .housekeeping = some server) :
      GatewayMove env g (.server .housekeeping) { g with server, pings }
  | server (quiet : calm action = true)
      (ran : g.server.step env action = some server) :
      GatewayMove env g (.server action) { g with server }
  | ping (waiting : g.pings = addr :: pings) :
      GatewayMove env g .ping
        { g with
          pings
          nextPingOpId := g.nextPingOpId + 1
          channels := g.channels + 1
          queue := g.queue ++ [(addr, .new g.nextPingOpId (.execute pingPath none) g.channels
            g.server.clock)] }
  | request (fresh : op.id = g.nextOpId) (same : op.command = command) :
      GatewayMove env g (.request addr command firstAck)
        { g with nextOpId := g.nextOpId + 1, channels, queue := g.queue ++ [(addr, op)] }
  | block (waiting : g.queue = (addr, op) :: queue) (command : op.command = .write path value format)
      (large : Client.blockThreshold < value.length) (named : task.opId = op.id)
      (peer : task.addr = addr) (pc : task.pc = .next) (target : task.path = path) :
      GatewayMove env g .dispatch
        { g with queue, midCounter, blockWrites := g.blockWrites.spawn task }
  | unsendable (waiting : g.queue = (addr, op) :: queue) :
      GatewayMove env g .dispatch { g with queue, midCounter, answers }
  | single (waiting : g.queue = (addr, op) :: queue)
      (ran : g.server.step env (.client (.placeInFlight addr (tokenOfId op.id)
        { op with attempts := op.attempts + 1 })) = some server)
      (pc : task.pc = .send) (token : task.token = tokenOfId op.id)
      (packet : ∃ mid, task.packet = Client.buildRequest op.command (tokenOfId op.id) mid) :
      GatewayMove env g .dispatch
        { g with server, queue, midCounter, retransmissions := g.retransmissions.spawn task }
  | retransmit (held : g.retransmissions.get? i = some task)
      (moved : task.step g.server choice = some outcome)
      (called : Gateway.call env g.server outcome.call = some server) :
      GatewayMove env g (.retransmit i choice)
        { g with
          server, armed, transmissions
          retransmissions := g.retransmissions.update i outcome.task }
  | blockWrite (held : g.blockWrites.get? i = some task)
      (moved : task.step env g.server choice = some outcome)
      (called : Gateway.call env g.server outcome.call = some server) :
      GatewayMove env g (.blockWrite i choice)
        { g with
          server, armed, transmissions, answers
          blockWrites := g.blockWrites.update i outcome.task }

/-- Everything the dispatch task can do with the operation in front. -/
inductive DispatchMove (env : Env) (g : Gateway) : Gateway → Prop where
  | block (waiting : g.queue = (addr, op) :: queue) (command : op.command = .write path value format)
      (large : Client.blockThreshold < value.length) :
      DispatchMove env g
        { g with
          queue
          midCounter := Client.skipMids g.midCounter
            ((value.length + Client.blockThreshold - 1) / Client.blockThreshold)
          blockWrites := g.blockWrites.spawn
            { addr, opId := op.id, path, payload := value, contentFormat := format
              responseTx := op.responseTx, firstAckTx := op.firstAckTx
              szx := Client.blockSzx, mid := g.midCounter, offset := 0, pc := .next } }
  | unsendable (waiting : g.queue = (addr, op) :: queue)
      (small : ∀ path value format, op.command = .write path value format →
        value.length ≤ Client.blockThreshold)
      (failed : env.toBytes (Client.buildRequest op.command (tokenOfId op.id) g.midCounter) = .error e) :
      DispatchMove env g
        { g with
          queue
          midCounter := Client.skipMids g.midCounter 1
          answers := (op.responseTx, .error .badRequest) :: g.answers }
  | single (waiting : g.queue = (addr, op) :: queue)
      (small : ∀ path value format, op.command = .write path value format →
        value.length ≤ Client.blockThreshold)
      (encoded : env.toBytes (Client.buildRequest op.command (tokenOfId op.id) g.midCounter) = .ok bytes)
      (ran : g.server.step env (.client (.placeInFlight addr (tokenOfId op.id)
        { op with attempts := op.attempts + 1 })) = some server) :
      DispatchMove env g
        { g with
          server
          queue
          midCounter := Client.skipMids g.midCounter 1
          retransmissions := g.retransmissions.spawn
            ⟨addr, tokenOfId op.id, Client.buildRequest op.command (tokenOfId op.id) g.midCounter, 0, .send⟩ }

open Gateway
variable {env : Env} {action : Action} {g g' : Gateway} {act : GatewayAction}

theorem release_fields {sender : Sender} {sent : Bool} (released : g.release env sender sent = some g') :
    ∃ armed transmissions, g' = { g with armed, transmissions } := by
  unfold release at released
  split at released
  · cases released
    exact ⟨g.armed, g.transmissions, rfl⟩
  · split at released
    · cases released
      exact ⟨_, _, rfl⟩
    · cases released

private theorem afterRecv_release (armed : List (Sender × SendCall))
    (transmissions : List (SendCall × UInt32)) :
    { g with armed, transmissions }.afterRecv = { g.afterRecv with armed, transmissions } := by
  unfold afterRecv
  dsimp only
  split
  · rfl
  · rfl
  · split <;> rfl
  · rfl

private theorem server_move (ran : g.serverStep env action = some g') :
    GatewayMove env g (.server action) g' := by
  unfold serverStep at ran
  obtain ⟨server, stepped, ran⟩ := Option.bind_eq_some_iff.mp ran
  cases action with
  | client => cases ran
  | receive packet addr =>
    cases ran
    exact .receive stepped
  | recv choice =>
    obtain ⟨middle, released, ran⟩ := Option.bind_eq_some_iff.mp ran
    cases ran
    obtain ⟨armed, transmissions, rfl⟩ := release_fields released
    dsimp only
    rw [afterRecv_release]
    exact .recv stepped
  | phase i choice =>
    obtain ⟨middle, released, ran⟩ := Option.bind_eq_some_iff.mp ran
    cases ran
    obtain ⟨armed, transmissions, rfl⟩ := release_fields released
    exact .phase stepped
  | housekeeping =>
    dsimp only at ran
    split at ran
    · cases ran
      exact .housekeeping stepped
    · cases ran
  | _ =>
    cases ran
    exact .server rfl stepped

private theorem single_move {addr : SocketAddr} {op : PendingOperation}
    {queue : List (SocketAddr × PendingOperation)} (waiting : g.queue = (addr, op) :: queue)
    (small : ∀ path value format, op.command = .write path value format →
      value.length ≤ Client.blockThreshold)
    (ran : dispatchStep.single env g addr op queue = some g') : DispatchMove env g g' := by
  unfold dispatchStep.single at ran
  dsimp only at ran
  split at ran
  · rename_i failed
    cases ran
    exact .unsendable waiting small failed
  · rename_i encoded
    obtain ⟨server, placed, ran⟩ := Option.bind_eq_some_iff.mp ran
    cases ran
    exact .single waiting small encoded placed

theorem dispatch_move (ran : g.dispatchStep env = some g') : DispatchMove env g g' := by
  unfold dispatchStep at ran
  split at ran
  · cases ran
  · rename_i addr op queue waiting
    split at ran
    · rename_i path value format command
      split at ran
      · rename_i large
        cases ran
        exact .block waiting command large
      · rename_i short
        refine single_move waiting (fun path' value' format' same => ?_) ran
        cases command.symm.trans same
        exact Nat.not_lt.mp short
    · rename_i other
      exact single_move waiting (fun path value format same => (other path value format same).elim) ran

/-- **Every step of the gateway is one of these moves.** -/
theorem gateway_move (ran : g.step env act = some g') : GatewayMove env g act g' := by
  cases act with
  | setClass sender success =>
    obtain ⟨call, -, ran⟩ := Option.bind_eq_some_iff.mp ran
    split at ran
    · cases ran
    · cases ran
      exact .setClass
  | server action => exact server_move ran
  | ping =>
    simp only [step] at ran
    split at ran
    · cases ran
    · rename_i waiting
      cases ran
      exact .ping waiting
  | request addr command firstAck =>
    cases ran
    exact .request rfl rfl
  | dispatch =>
    cases dispatch_move ran with
    | block waiting command large => exact .block waiting command large rfl rfl rfl rfl
    | unsendable waiting => exact .unsendable waiting
    | single waiting _ _ placed => exact .single waiting placed rfl rfl ⟨_, rfl⟩
  | retransmit i choice =>
    obtain ⟨task, held, ran⟩ := Option.bind_eq_some_iff.mp ran
    obtain ⟨outcome, moved, ran⟩ := Option.bind_eq_some_iff.mp ran
    obtain ⟨middle, released, ran⟩ := Option.bind_eq_some_iff.mp ran
    obtain ⟨server, called, ran⟩ := Option.bind_eq_some_iff.mp ran
    cases ran
    obtain ⟨armed, transmissions, rfl⟩ := release_fields released
    exact .retransmit held moved called
  | blockWrite i choice =>
    obtain ⟨task, held, ran⟩ := Option.bind_eq_some_iff.mp ran
    obtain ⟨outcome, moved, ran⟩ := Option.bind_eq_some_iff.mp ran
    obtain ⟨middle, released, ran⟩ := Option.bind_eq_some_iff.mp ran
    obtain ⟨server, called, ran⟩ := Option.bind_eq_some_iff.mp ran
    cases ran
    obtain ⟨armed, transmissions, rfl⟩ := release_fields released
    exact .blockWrite held moved called

/-- **The gateway runs the server**: a step makes one step of the server or
none, and the steps that are not the server's own are its clients' calls. -/
theorem server_part (ran : g.step env act = some g') :
    g'.server = g.server ∨ ∃ action, g.server.step env action = some g'.server ∧
      (act = .server action ∨ ∃ call, action = .client call) := by
  have called {made : Option ClientCall} {server : Server}
      (ran : call env g.server made = some server) :
      server = g.server ∨ ∃ action, g.server.step env action = some server ∧
        (act = .server action ∨ ∃ call, action = .client call) := by
    cases made with
    | none =>
      cases ran
      exact Or.inl rfl
    | some made => exact Or.inr ⟨.client made, ran, Or.inr ⟨made, rfl⟩⟩
  cases gateway_move ran with
  | receive stepped | recv stepped | phase stepped | housekeeping stepped | server _ stepped =>
    exact Or.inr ⟨_, stepped, Or.inl rfl⟩
  | single _ stepped => exact Or.inr ⟨_, stepped, Or.inr ⟨_, rfl⟩⟩
  | retransmit _ _ stepped => exact called stepped
  | blockWrite _ _ stepped => exact called stepped
  | _ => exact Or.inl rfl

/-- A new endpoint is given an id that is not in use. -/
def IdFree (g : Gateway) : GatewayAction → Prop
  | .server action => NewIdFree g.server action
  | _ => True

instance (g : Gateway) : (act : GatewayAction) → Decidable (IdFree g act)
  | .server action => inferInstanceAs (Decidable (NewIdFree g.server action))
  | .setClass .. | .ping | .request .. | .dispatch | .retransmit .. | .blockWrite .. => isTrue trivial

theorem start_sound (initial : (machine env).start g) : IndexesSound g.server.devices := by
  obtain ⟨seed, serverUri, included, now, snapshots, clock, trafficClass, -, ids, endpoints, rfl⟩ :=
    initial
  have started : (soundServer env).start (Server.initial seed serverUri included
      (DeviceRegistry.new.restore now snapshots) clock) :=
    ⟨seed, serverUri, included, now, snapshots, clock, ids, endpoints, rfl⟩
  exact start_indexes started

theorem sound_step (sound : IndexesSound g.server.devices) (free : IdFree g act)
    (ran : g.step env act = some g') : IndexesSound g'.server.devices := by
  rcases server_part ran with same | ⟨action, stepped, rfl | ⟨call, rfl⟩⟩
  · rwa [same]
  · exact indexes_step sound free stepped
  · refine indexes_step sound (fun at_ member => ?_) stepped
    cases member

/-- What holds in every run of the server holds of the gateway's server. -/
theorem reached_server {guard : Gateway → GatewayAction → Prop}
    (reached : (machine env).Reaches guard g) :
    (serverMachine env).Reaches Machine.always g.server := by
  refine reached.invariant (fun g => (serverMachine env).Reaches Machine.always g.server)
    (fun g initial => ?_) ?_
  · obtain ⟨seed, serverUri, included, now, snapshots, clock, trafficClass, -, -, -, rfl⟩ := initial
    exact .start ⟨seed, serverUri, included, _, clock, rfl⟩
  · intro g act g' _ reached _ ran
    rcases server_part ran with same | ⟨action, stepped, -⟩
    · rwa [same]
    · exact .step reached trivial stepped

end Lwm2mServer.GatewaySteps
