import Lwm2mServer.RecordSteps

/-! `handle_update`: a heartbeat, POST /rd/<id>, is answered with 2.04 before
the registry is asked, and the registry is asked by the source address; the id
in the path is not read. The handler is followed from its answer to its end,
with any steps of the other tasks between the answer and the renewal, and
between the renewal and the end. -/
namespace Lwm2mServer.Heartbeats
open Library DeviceRegistry DeviceRecords

/-- The registration id a heartbeat names. -/
def heartbeatId (packet : Packet) : Option UInt32 :=
  match splitText '/' (String.ofList ((uriPath packet).toList.dropWhile (· = '/'))) with
  | ["rd", id] => parseU32 id
  | _ => none

/-- The lifetime a heartbeat asks for. -/
def newLifetime (packet : Packet) : Option UInt32 :=
  ((parseQuery (uriQuery packet)).lookup "lt").bind parseU32

/-- A POST request that names a registration id. -/
structure IsHeartbeat (packet : Packet) (id : UInt32) : Prop where
  request : packet.type = .confirmable ∨ packet.type = .nonConfirmable
  post : packet.code = .request .post
  path : heartbeatId packet = some id

/-- Steps of the other tasks while the receive loop waits for its turn. -/
inductive Meanwhile (env : Env) : Server → Server → Prop where
  | refl (s : Server) : Meanwhile env s s
  | step (earlier : Meanwhile env s middle) (other : ∀ choice, action ≠ .recv choice)
      (ran : middle.step env action = some next) : Meanwhile env s next

/-- The server answers a heartbeat with 2.04 and, after steps of other tasks,
is about to renew. -/
structure Acknowledged (env : Env) (packet : Packet) (addr : SocketAddr) (s waiting : Server) :
    Prop where
  handled : s.recv = handlePacket env packet addr
  answered : ∃ choice answered, Server.sends env (makeResponse packet .changed) choice = true ∧
    s.step env (.recv choice) = some answered ∧ Meanwhile env answered waiting

/-- The registry holds the device, renewed at some moment and with the new
lifetime if there is one. -/
def RenewedAt (s : Server) (moment : Instant) (id : UInt32) (newLifetime : Option UInt32) : Prop :=
  ∃ dev, s.devices.byId.lookup id = some dev ∧ dev.lastRegisteredAt = moment ∧
    ∀ lifetime ∈ newLifetime, dev.lifetime = lifetime

/-- Whenever the rest of the handler runs, it renews the device at that moment
and comes to an end; and whatever other tasks do in between, the device is
renewed then, unless one of them has removed it. A device that happens to carry
the present moment already is not enough: the handler may run at any later
one. -/
def Renews (env : Env) (waiting : Server) (id : UInt32) (newLifetime : Option UInt32) : Prop :=
  ∀ nanos, ∃ started renewed, waiting.step env (.advance nanos) = some started ∧
    started.step env (.recv {}) = some renewed ∧ RenewedAt renewed started.clock id newLifetime ∧
    ∀ last, Meanwhile env renewed last → last.devices.byId.lookup id ≠ none →
      ∃ ended, last.step env (.recv {}) = some ended ∧ ended.recv = .idle ∧
        RenewedAt ended started.clock id newLifetime

/-- The source address is indexed to the registration. -/
def KnownAt (r : DeviceRegistry) (addr : SocketAddr) (id : UInt32) : Prop :=
  r.byAddr.lookup addr = some id ∧ r.byId.lookup id ≠ none

variable {env : Env} {s next waiting last : Server} {packet : Packet} {addr : SocketAddr} {id : UInt32}
  {r : DeviceRegistry} {lifetime : Option UInt32}

/-! ## The two registry calls -/

theorem renewRegistration_byAddr (now : Instant) :
    (r.renewRegistration now addr lifetime).byAddr = r.byAddr := by
  unfold renewRegistration
  split
  · rfl
  · split <;> rfl

theorem renewRegistration_lookup (now : Instant) (probe : UInt32) :
    (r.renewRegistration now addr lifetime).byId.lookup probe =
      if r.byAddr.lookup addr = some probe then
        (r.byId.lookup probe).map fun dev =>
          { dev with lastRegisteredAt := now, lifetime := lifetime.getD dev.lifetime }
      else r.byId.lookup probe := by
  unfold renewRegistration
  cases index : r.byAddr.lookup addr with
  | none => simp
  | some id =>
    by_cases same : id = probe
    · subst same
      cases stored : r.byId.lookup id with
      | none => simp [stored]
      | some dev => simp [stored, putDevice]
    · have other : some id ≠ some probe := fun equal => same (Option.some.inj equal)
      rw [if_neg other]
      cases stored : r.byId.lookup id with
      | none => simp [stored]
      | some dev => simp [stored, putDevice, Ne.symm same]

theorem drainPending_lookup {ops : List PendingOperation} {r' : DeviceRegistry}
    (drained : r.drainPending addr = some (ops, r')) (probe : UInt32) :
    r'.byId.lookup probe = (r.byId.lookup probe).map fun dev =>
      if r.byAddr.lookup addr = some probe then { dev with pendingOps := [] } else dev := by
  unfold drainPending at drained
  cases index : r.byAddr.lookup addr with
  | none =>
    simp only [index] at drained
    cases drained
    simp
  | some id =>
    simp only [index] at drained
    obtain ⟨dev, stored, drained⟩ := Option.bind_eq_some_iff.mp drained
    cases drained
    by_cases same : id = probe
    · subst same
      simp [putDevice, stored]
    · simp [putDevice, same, Ne.symm same]

theorem drainPending_runs (sound : ∀ probe, r.byAddr.lookup addr = some probe →
    r.byId.lookup probe ≠ none) : ∃ ops r', r.drainPending addr = some (ops, r') := by
  cases index : r.byAddr.lookup addr with
  | none => exact ⟨[], r, by simp only [drainPending, index]⟩
  | some probe =>
    obtain ⟨dev, stored⟩ := Option.ne_none_iff_exists'.mp (sound probe index)
    exact ⟨dev.pendingOps, _, by simp only [drainPending, index, stored]; rfl⟩

/-! ## The handler -/

theorem handlePacket_heartbeat (env : Env) (heartbeat : IsHeartbeat packet id) :
    handlePacket env packet addr =
      .respond (makeResponse packet .changed) addr (.renew (newLifetime packet)) := by
  have path : postPath packet = .update := by
    have named := heartbeat.path
    unfold heartbeatId at named
    unfold postPath
    split at named
    · rename_i parts
      simp [parts]
    · cases named
  have post : handlePost env packet addr =
      .respond (makeResponse packet .changed) addr (.renew (newLifetime packet)) := by
    simp only [handlePost, path]
    rfl
  unfold handlePacket
  rcases heartbeat.request with type | type <;> simp only [type, heartbeat.post, post]

/-- The other tasks leave the receive loop where it is. -/
theorem recv_meanwhile (meanwhile : Meanwhile env s waiting) (busy : s.recv ≠ .idle) :
    waiting.recv = s.recv := by
  induction meanwhile with
  | refl => rfl
  | @step middle action next earlier other ran ih =>
    rw [← ih]
    by_cases phase : ∃ i choice, action = .phase i choice
    · obtain ⟨i, choice, rfl⟩ := phase
      obtain ⟨task, held, ran⟩ := Option.bind_eq_some_iff.mp ran
      obtain ⟨outcome, moved, ran⟩ := Option.bind_eq_some_iff.mp ran
      cases ran
      rfl
    · have elsewhere := elsewhere_step ran other fun i choice same => phase ⟨i, choice, same⟩
      rcases elsewhere.recv with same | ⟨_, _, _, idle, _⟩
      · exact same
      · exact absurd (ih.symm.trans idle) busy

/-- Between the answer and the renewal the handler waits to renew. -/
theorem waiting_to_renew (heartbeat : IsHeartbeat packet id)
    (acknowledged : Acknowledged env packet addr s waiting) :
    waiting.recv = .renew (newLifetime packet) addr := by
  obtain ⟨choice, answered, sent, ran, others⟩ := acknowledged.answered
  have position := acknowledged.handled.trans (handlePacket_heartbeat env heartbeat)
  simp only [Server.step, Server.recvStep, position, sent, if_true] at ran
  cases ran
  exact recv_meanwhile others fun idle => by cases idle

/-- Other tasks renew nothing. -/
theorem renewed_meanwhile {moment : Instant} (meanwhile : Meanwhile env s last)
    (renewed : RenewedAt s moment id lifetime) (stored : last.devices.byId.lookup id ≠ none) :
    RenewedAt last moment id lifetime := by
  induction meanwhile with
  | refl => exact renewed
  | @step middle action next earlier other ran ih =>
    obtain ⟨found, held⟩ := Option.ne_none_iff_exists'.mp stored
    cases RecordSteps.record_move ran held with
    | @same dev before kept =>
      obtain ⟨dev', before', since, lasts⟩ := ih (by simp [before])
      rw [before] at before'
      cases before'
      injection kept with _ _ _ sameSince sameLifetime
      exact ⟨found, held, sameSince.trans since, fun asked given => sameLifetime.trans (lasts asked given)⟩
    | added here | registered here | renewed here | merged here => exact absurd here (other _)

/-- Other tasks index nothing. -/
theorem byAddr_meanwhile (meanwhile : Meanwhile env s last)
    (index : last.devices.byAddr.lookup addr = some id) : s.devices.byAddr.lookup addr = some id := by
  induction meanwhile with
  | refl => exact index
  | step _ other ran ih => exact ih (RecordSteps.byAddr_move ran other index)

/-- The end of the handler takes out what waits for the device. -/
theorem ends_renewed {moment : Instant} (position : last.recv = .drain addr)
    (renewed : RenewedAt last moment id lifetime)
    (own : ∀ probe, last.devices.byAddr.lookup addr = some probe → probe = id) :
    ∃ ended, last.step env (.recv {}) = some ended ∧ ended.recv = .idle ∧
      RenewedAt ended moment id lifetime := by
  obtain ⟨dev, stored, since, lasts⟩ := renewed
  have sound (probe : UInt32) (index : last.devices.byAddr.lookup addr = some probe) :
      last.devices.byId.lookup probe ≠ none := by
    rw [own probe index, stored]
    nofun
  obtain ⟨ops, drained, called⟩ := drainPending_runs sound
  refine ⟨{ last with devices := drained, recv := .idle }, ?_, rfl, ?_⟩
  · simp only [Server.step, Server.recvStep, position, called]
    rfl
  · have kept := drainPending_lookup called id
    rw [stored, Option.map_some] at kept
    refine ⟨_, kept, ?_, fun asked given => ?_⟩
    · split <;> exact since
    · split <;> exact lasts asked given

/-- The step of the renewal. -/
theorem renew_step (position : s.recv = .renew lifetime addr) : s.step env (.recv choice) =
    some { s with devices := s.devices.renewRegistration s.clock addr lifetime, recv := .drain addr } := by
  simp only [Server.step, Server.recvStep, position]

theorem renews_of_known (position : waiting.recv = .renew lifetime addr)
    (known : KnownAt waiting.devices addr id) : Renews env waiting id lifetime := by
  intro nanos
  let devices := waiting.devices.renewRegistration (waiting.clock + nanos) addr lifetime
  let renewed := { waiting with clock := waiting.clock + nanos, devices, recv := .drain addr }
  obtain ⟨dev, stored⟩ := Option.ne_none_iff_exists'.mp known.2
  have stamped : RenewedAt renewed (waiting.clock + nanos) id lifetime := by
    refine ⟨{ dev with
      lastRegisteredAt := waiting.clock + nanos, lifetime := lifetime.getD dev.lifetime }, ?_, rfl, ?_⟩
    · change devices.byId.lookup id = _
      rw [renewRegistration_lookup, if_pos known.1, stored]
      rfl
    · intro asked given
      rw [given]
      rfl
  refine ⟨{ waiting with clock := waiting.clock + nanos }, renewed, rfl, renew_step position, stamped, ?_⟩
  intro last meanwhile there
  have busy : renewed.recv ≠ .idle := by
    intro idle
    cases idle
  refine ends_renewed (recv_meanwhile meanwhile busy) (renewed_meanwhile meanwhile stamped there) ?_
  intro probe index
  have before : devices.byAddr.lookup addr = some probe := byAddr_meanwhile meanwhile index
  rw [renewRegistration_byAddr, known.1] at before
  exact (Option.some.inj before).symm

/-- A device that is not the one at the address keeps its old timestamp. -/
theorem known_of_renews (position : waiting.recv = .renew lifetime addr)
    (renews : Renews env waiting id lifetime) : KnownAt waiting.devices addr id := by
  have stamped (nanos : Nat) : ∃ dev, (waiting.devices.renewRegistration
      (waiting.clock + nanos) addr lifetime).byId.lookup id = some dev ∧
      dev.lastRegisteredAt = waiting.clock + nanos := by
    obtain ⟨started, renewed, advanced, ran, ⟨dev, stored, since, -⟩, -⟩ := renews nanos
    cases advanced
    have here : ({ waiting with clock := waiting.clock + nanos } : Server).recv = .renew lifetime addr :=
      position
    rw [renew_step here] at ran
    cases ran
    exact ⟨dev, stored, since⟩
  by_cases index : waiting.devices.byAddr.lookup addr = some id
  · refine ⟨index, fun missing => ?_⟩
    obtain ⟨dev, stored, -⟩ := stamped 0
    rw [renewRegistration_lookup, if_pos index, missing] at stored
    cases stored
  · have old (nanos : Nat) : ∃ dev, waiting.devices.byId.lookup id = some dev ∧
        dev.lastRegisteredAt = waiting.clock + nanos := by
      obtain ⟨dev, stored, since⟩ := stamped nanos
      rw [renewRegistration_lookup, if_neg index] at stored
      exact ⟨dev, stored, since⟩
    obtain ⟨dev, stored, now⟩ := old 0
    obtain ⟨other, same, later⟩ := old 1
    rw [stored] at same
    cases same
    have equal : waiting.clock + 0 = waiting.clock + 1 := now.symm.trans later
    exact absurd (Nat.add_left_cancel equal) Nat.zero_ne_one

/-- **An acknowledged heartbeat renews the registration it names exactly if,
when the renewal runs, the source address is indexed to that registration.** -/
theorem acknowledged_renews_iff (heartbeat : IsHeartbeat packet id)
    (acknowledged : Acknowledged env packet addr s waiting) :
    Renews env waiting id (newLifetime packet) ↔ KnownAt waiting.devices addr id := by
  have position := waiting_to_renew heartbeat acknowledged
  exact ⟨known_of_renews position, renews_of_known position⟩

/-- Every heartbeat answered in a state renews the registration it names. -/
def AcknowledgedRenews (env : Env) (s : Server) : Prop :=
  ∀ packet addr id waiting, IsHeartbeat packet id → Acknowledged env packet addr s waiting →
    Renews env waiting id (newLifetime packet)

/-- POST /rd/<id> with a lifetime. -/
def heartbeat (id : String) : Packet :=
  { type := .confirmable, code := .request .post, messageId := 1, token := [1]
    uriPath := ["rd", id], uriQuery := ["lt=300"] }

/-- The answer to a heartbeat that is about to be sent, where to, and the
lifetime that was asked for. -/
def answering : Recv → Option (Packet × SocketAddr × Option UInt32)
  | .respond response addr (.renew newLifetime) => some (response, addr, newLifetime)
  | _ => none

/-- A state in which the answer is sent and the renewal follows at once. -/
theorem acknowledged_of (heartbeat : IsHeartbeat packet id)
    (position : answering s.recv = some (makeResponse packet .changed, addr, newLifetime packet))
    (sent : Server.sends env (makeResponse packet .changed) {} = true) :
    Acknowledged env packet addr s { s with recv := .renew (newLifetime packet) addr } := by
  have respond : s.recv =
      .respond (makeResponse packet .changed) addr (.renew (newLifetime packet)) := by
    unfold answering at position
    split at position
    · rename_i here
      cases position
      exact here
    · cases position
  refine ⟨respond.trans (handlePacket_heartbeat env heartbeat).symm, {}, _, sent, ?_, .refl _⟩
  simp only [Server.step, Server.recvStep, respond, sent, if_true]
  rfl

theorem heartbeat_one : IsHeartbeat (heartbeat "1") 1 := ⟨Or.inl rfl, rfl, by decide +kernel⟩
theorem heartbeat_seven : IsHeartbeat (heartbeat "7") 7 := ⟨Or.inl rfl, rfl, by decide +kernel⟩

/-- A device registers, is given id 1 and sends a heartbeat for it. -/
theorem registered_device_renewed :
    ∃ s waiting, (serverMachine Peer.env).Reaches Machine.always s ∧
      Acknowledged Peer.env (heartbeat "1") Peer.addr s waiting ∧
      Renews Peer.env waiting 1 (newLifetime (heartbeat "1")) := by
  obtain ⟨s, -, reached, seen⟩ := (serverMachine Peer.env).exec_reaches Machine.always Peer.server
    (Peer.deliver (Peer.post "rd" "mower") 6 ++ Peer.deliver (heartbeat "1") 1)
    (fun s : Server => decide (s.devices.byAddr.lookup Peer.addr = some 1) &&
      (s.devices.byId.lookup 1).isSome && decide (answering s.recv =
        some (makeResponse (heartbeat "1") .changed, Peer.addr, newLifetime (heartbeat "1"))))
    ⟨_, _, _, _, _, rfl⟩ (by decide +kernel)
  simp only [Bool.and_eq_true, decide_eq_true_eq] at seen
  obtain ⟨⟨index, stored⟩, position⟩ := seen
  have sent : Server.sends Peer.env (makeResponse (heartbeat "1") .changed) {} = true := rfl
  have acknowledged := acknowledged_of heartbeat_one position sent
  refine ⟨s, _, reached, acknowledged, (acknowledged_renews_iff heartbeat_one acknowledged).mpr ?_⟩
  exact ⟨index, Option.isSome_iff_ne_none.mp stored⟩

/-- A heartbeat for a registration the server has lost is acknowledged. -/
theorem lost_registration_acknowledged :
    ∃ s, (serverMachine Peer.env).Reaches Machine.always s ∧ ¬ AcknowledgedRenews Peer.env s := by
  obtain ⟨s, -, reached, seen⟩ := (serverMachine Peer.env).exec_reaches Machine.always Peer.server
    (Peer.deliver (heartbeat "7") 1)
    (fun s : Server => decide (s.devices.byAddr.lookup Peer.addr = none) &&
      decide (answering s.recv =
        some (makeResponse (heartbeat "7") .changed, Peer.addr, newLifetime (heartbeat "7"))))
    ⟨_, _, _, _, _, rfl⟩ (by decide +kernel)
  simp only [Bool.and_eq_true, decide_eq_true_eq] at seen
  obtain ⟨unknown, position⟩ := seen
  have sent : Server.sends Peer.env (makeResponse (heartbeat "7") .changed) {} = true := rfl
  have acknowledged := acknowledged_of heartbeat_seven position sent
  refine ⟨s, reached, fun renews => ?_⟩
  have known := known_of_renews rfl (renews _ _ _ _ heartbeat_seven acknowledged)
  exact absurd (unknown.symm.trans known.1) nofun

end Lwm2mServer.Heartbeats
