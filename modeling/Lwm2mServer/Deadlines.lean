import Lwm2mServer.Library.Sweeps
import Lwm2mServer.PingSchedule
import Lwm2mServer.RecordSteps
import Lwm2mServer.RestartedRegistry
import Lwm2mServer.RetransmissionEnd
import Lwm2mServer.SessionIndexes

/-! How long things stay. The housekeeping loop removes devices that do not
renew their registration, answers operations nobody acknowledges, drops GET
/0/0 sessions nobody answers and pings online devices that are silent. It looks
at them from time to time only; if each of its calls is made again before a
period is over, nothing stays longer than its own term and one period, whatever
the other tasks do meanwhile. -/
namespace Lwm2mServer.Deadlines
open Library DeviceRegistry DeviceRecords GatewaySteps InFlight OperationIds RestartedRegistry
  RetransmissionEnd SessionIndexes

/-- The gateway with two things it does not keep itself. -/
structure Watched where
  gateway : Gateway
  /-- When each call of a housekeeping tick was made last. -/
  madeAt : Housekeeping → Instant
  /-- When the operation a device has in flight under a token came there. -/
  placedAt : UInt32 × Token → Instant

/-- The operation a device has in flight under a token. -/
def flying (r : DeviceRegistry) (place : UInt32 × Token) : Option PendingOperation :=
  (r.byId.lookup place.1).bind (·.inFlight.lookup place.2)

/-- A step is the given call of the housekeeping loop. -/
def makes (g : Gateway) (call : Housekeeping) : GatewayAction → Bool
  | .server .housekeeping => g.server.housekeeping = call
  | _ => false

def step (env : Env) (w : Watched) (act : GatewayAction) : Option Watched :=
  (w.gateway.step env act).map fun next =>
    { gateway := next
      madeAt := fun call =>
        if makes w.gateway call act then w.gateway.server.clock else w.madeAt call
      placedAt := fun place =>
        if flying next.server.devices place = flying w.gateway.server.devices place then
          w.placedAt place
        else w.gateway.server.clock }

/-- The gateway as `main` starts it, less than a period after the devices were
restored. -/
def machine (env : Env) (period : Nat) : Machine Watched GatewayAction where
  start w := ∃ seed serverUri included now snapshots clock trafficClass,
    seed.toNat < 1000000000 ∧
      (snapshots.map (·.id)).Nodup ∧ (snapshots.map (·.endpoint)).Nodup ∧
      now ≤ clock ∧ clock ≤ now + period ∧
      w = { gateway :=
              { server := Server.initial seed serverUri included
                  (DeviceRegistry.new.restore now snapshots) clock
                trafficClass }
            madeAt := fun _ => now
            placedAt := fun _ => now }
  step := step env

/-- The time a step takes. -/
def passes : GatewayAction → Nat
  | .server (.advance nanos) => nanos
  | _ => 0

/-- The clock does not pass the moment by which a call of the housekeeping loop
is to be made again. -/
def Punctual (period : Nat) (w : Watched) (act : GatewayAction) : Prop :=
  ∀ call, w.gateway.server.clock + passes act ≤ w.madeAt call + period

instance (period : Nat) (w : Watched) (act : GatewayAction) : Decidable (Punctual period w act) :=
  decidable_of_iff (∀ call ∈ [Housekeeping.expireDevices, .timeoutOps, .expireSessions, .takePings],
      w.gateway.server.clock + passes act ≤ w.madeAt call + period)
    ⟨fun every call => every call (by cases call <;> simp), fun every call _ => every call⟩

/-! What a look goes through, and the times from which it does not leave it. -/

def registrations : Sweep Watched UInt32 where
  clock w := w.gateway.server.clock
  last w := w.madeAt .expireDevices
  due w id := (w.gateway.server.devices.byId.lookup id).map fun dev =>
    dev.lastRegisteredAt + fromSecs (dev.lifetime.toNat + 31)

def operations : Sweep Watched (UInt32 × Token) where
  clock w := w.gateway.server.clock
  last w := w.madeAt .timeoutOps
  due w place := (flying w.gateway.server.devices place).map fun _ => w.placedAt place + fromSecs 61

def sessions : Sweep Watched Token where
  clock w := w.gateway.server.clock
  last w := w.madeAt .expireSessions
  due w token := (w.gateway.server.boot.byToken.lookup token).map fun session =>
    session.startedAt + fromSecs 31

/-- When a device was last heard of or last taken for a ping. -/
def lastAttempt (dev : Device) : Instant := max dev.lastContact (dev.lastPingAttempt.getD 0)

def contacts : Sweep Watched UInt32 where
  clock w := w.gateway.server.clock
  last w := w.madeAt .takePings
  due w id := (w.gateway.server.devices.byId.lookup id).bind fun dev =>
    if dev.online = some true then some (lastAttempt dev + Housekeeping.onlinePingInterval) else none

variable {env : Env} {period : Nat} {w next : Watched} {g g' : Gateway} {s : Server}
  {act : GatewayAction} {call : Housekeeping} {r : DeviceRegistry} {id : UInt32} {found dev : Device}
  {now : Instant} {nanos : Nat} {place : UInt32 × Token} {op : PendingOperation}

/-! ## Steps -/

theorem gateway_step (ran : step env w act = some next) :
    w.gateway.step env act = some next.gateway := by
  obtain ⟨g, stepped, rfl⟩ := Option.map_eq_some_iff.mp ran
  exact stepped

theorem makes_eq (made : makes g call act = true) :
    act = .server .housekeeping ∧ g.server.housekeeping = call := by
  unfold makes at made
  split at made
  · exact ⟨rfl, of_decide_eq_true made⟩
  · cases made

/-- The server after a call of the housekeeping loop. -/
theorem made_server (ran : g.step env act = some g') (made : makes g call act = true) :
    g'.server = g.server.housekeepingStep := by
  obtain ⟨rfl, -⟩ := makes_eq made
  cases gateway_move ran with
  | housekeeping stepped => exact (Option.some.inj stepped).symm
  | server quiet => cases quiet

theorem madeAt_step (ran : step env w act = some next) (call : Housekeeping) :
    next.madeAt call =
      if makes w.gateway call act then w.gateway.server.clock else w.madeAt call := by
  obtain ⟨g, -, rfl⟩ := Option.map_eq_some_iff.mp ran
  rfl

theorem clock_step (ran : g.step env act = some g') :
    g'.server.clock = g.server.clock + passes act := by
  by_cases advances : ∃ nanos, act = .server (.advance nanos)
  · obtain ⟨nanos, rfl⟩ := advances
    cases gateway_move ran with
    | server _ stepped =>
      cases stepped
      rfl
  · have still : passes act = 0 := by
      unfold passes
      split
      · exact absurd ⟨_, rfl⟩ advances
      · rfl
    rw [still]
    rcases server_part ran with same | ⟨action, stepped, kind⟩
    · exact congrArg Server.clock same
    · refine RecvSteps.clock_kept stepped fun nanos same => ?_
      rcases kind with rfl | ⟨called, equal⟩
      · exact advances ⟨nanos, same ▸ rfl⟩
      · cases same.symm.trans equal

/-- Looks stay on time. -/
theorem onTime_step (ran : step env w act = some next) (allowed : Punctual period w act)
    (past : w.madeAt call ≤ w.gateway.server.clock) :
    next.gateway.server.clock ≤ next.madeAt call + period := by
  rw [clock_step (gateway_step ran)]
  refine Nat.le_trans (allowed call) (Nat.add_le_add_right ?_ period)
  rw [madeAt_step ran]
  split
  · exact past
  · exact Nat.le_refl _

/-- What becomes of a device in a step. -/
theorem device_step (ran : g.step env act = some g')
    (stored : g'.server.devices.byId.lookup id = some found) :
    g.server.devices.byId.lookup id = some found ∨
      ∃ op, (∀ now ∈ PingSchedule.timeOf op, now = g.server.clock) ∧
        (Changed g.server.devices op id found ∨ Added g.server.devices op id found) := by
  rcases server_part ran with same | ⟨action, stepped, -⟩
  · rw [same] at stored
    exact Or.inl stored
  · have made := registry_step stepped
    cases called : registryCall g.server action with
    | none =>
      rw [called] at made
      have same : g.server.devices = g'.server.devices := Option.some.inj made
      exact Or.inl (same ▸ stored)
    | some op =>
      rw [called] at made
      exact Or.inr ⟨op, (PingSchedule.registryCall_usual called).2, apply_device made stored⟩

/-! ## Registrations -/

theorem before_of_elapsedSecs {now since secs : Nat} (few : elapsedSecs now since ≤ secs) :
    now < since + fromSecs (secs + 1) := by
  unfold elapsedSecs elapsed at few
  unfold fromSecs
  omega

theorem before_of_elapsed {now since width : Nat} (recent : ¬width ≤ elapsed now since) :
    now < since + width := by
  unfold elapsed at recent
  omega

/-- The loop of `expire_stale` takes out the devices it was given. -/
private theorem lookup_expired (expired : List UInt32)
    (acc : List String × List Reply × DeviceRegistry)
    (stored : (expired.foldl expireOne acc).2.2.byId.lookup id = some found) :
    id ∉ expired ∧ acc.2.2.byId.lookup id = some found := by
  induction expired generalizing acc with
  | nil => exact ⟨List.not_mem_nil, stored⟩
  | cons first rest ih =>
    obtain ⟨later, kept⟩ := ih _ stored
    obtain ⟨removed, replies, r⟩ := acc
    simp only [expireOne] at kept
    split at kept
    · rename_i gone
      refine ⟨List.not_mem_cons_of_ne_of_not_mem ?_ later, kept⟩
      rintro rfl
      cases gone.symm.trans kept
    · rw [removeDevice, Table.lookup_erase_if] at kept
      split at kept
      · cases kept
      · rename_i other
        exact ⟨List.not_mem_cons_of_ne_of_not_mem other later, kept⟩

/-- `expire_stale` leaves no device that is expired. -/
theorem left_unexpired {graceSecs : UInt32} (keyed : Keyed r)
    (stored : (r.expireStale now graceSecs).2.2.byId.lookup id = some found) :
    found.isExpired now graceSecs = false := by
  obtain ⟨kept, before⟩ := lookup_expired _ _ stored
  by_contra late
  refine kept (List.mem_map.mpr ⟨found, List.mem_filter.mpr ⟨?_, ?_⟩, keyed.ownId id found before⟩)
  · exact Table.mem_values.mpr ⟨id, before⟩
  · exact eq_true_of_ne_false late

/-- A step keeps the term of a registration or begins one. -/
theorem registered_step (ran : g.step env act = some g')
    (stored : g'.server.devices.byId.lookup id = some found) :
    found.lastRegisteredAt = g.server.clock ∨ ∃ dev, g.server.devices.byId.lookup id = some dev ∧
      dev.lastRegisteredAt = found.lastRegisteredAt ∧ dev.lifetime = found.lifetime := by
  have kept {dev : Device} (before : g.server.devices.byId.lookup id = some dev)
      (since : (recordOf found).since = (recordOf dev).since)
      (lifetime : (recordOf found).lifetime = (recordOf dev).lifetime) :
      found.lastRegisteredAt = g.server.clock ∨ ∃ dev, g.server.devices.byId.lookup id = some dev ∧
        dev.lastRegisteredAt = found.lastRegisteredAt ∧ dev.lifetime = found.lifetime :=
    Or.inr ⟨dev, before, since.symm, lifetime.symm⟩
  rcases server_part ran with same | ⟨action, stepped, -⟩
  · rw [same] at stored
    exact kept stored rfl rfl
  · cases RecordSteps.record_move stepped stored with
    | same before record => exact kept before (congrArg _ record) (congrArg _ record)
    | added _ _ _ new => exact Or.inl (congrArg Device.lastRegisteredAt new)
    | registered _ _ _ _ record => exact Or.inl (congrArg Record.since record)
    | renewed _ _ _ _ record => exact Or.inl (congrArg Record.since record)
    | merged _ _ _ before record =>
      exact kept before (congrArg Record.since record :) (congrArg Record.lifetime record :)

theorem registrations_keep (keyed : Keyed w.gateway.server.devices)
    (ran : step env w act = some next) : registrations.Keeps w next := by
  have stepped := gateway_step ran
  have since := madeAt_step ran .expireDevices
  split at since
  · rename_i made
    refine .look since fun id t there => ?_
    obtain ⟨dev, stored, rfl⟩ := Option.map_eq_some_iff.mp there
    rw [made_server stepped made, Server.housekeepingStep, (makes_eq made).2] at stored
    have young := left_unexpired keyed stored
    simp only [Device.isExpired, decide_eq_false_iff_not, Nat.not_lt] at young
    exact before_of_elapsedSecs young
  · refine .other since fun id t there => ?_
    obtain ⟨found, stored, rfl⟩ := Option.map_eq_some_iff.mp there
    rcases registered_step stepped stored with now | ⟨dev, before, same, lifetime⟩
    · left
      rw [now]
      exact Nat.lt_add_of_pos_right (Nat.mul_pos (Nat.succ_pos _) (Nat.succ_pos _))
    · right
      refine ⟨_, Option.map_eq_some_iff.mpr ⟨dev, before, rfl⟩, ?_⟩
      rw [same, lifetime]

/-! ## Operations

An operation is as old as its `created_at` says, which it got when it went into
the channel to the dispatch task. So it is older than its stay among the
operations in flight, and is answered sooner. -/

theorem flying_eq_some : flying r place = some op ↔ Holds r place op := Option.bind_eq_some_iff

/-- An operation joins the queue with the time it does. -/
private theorem queued_step (tidy : Tidy g.server.devices.byId) (ran : g.step env act = some g')
    {entry : SocketAddr × PendingOperation} (member : entry ∈ g'.queue) :
    entry ∈ g.queue ∨ entry.2.createdAt = g.server.clock := by
  by_cases asks : ∃ addr command firstAck, act = .request addr command firstAck
  · obtain ⟨addr, command, firstAck, rfl⟩ := asks
    cases ran
    rcases List.mem_append.mp member with old | new
    · exact Or.inl old
    · rw [List.mem_singleton.mp new]
      exact Or.inr rfl
  · cases gateway_move ran with
    | recv =>
      simp only [Gateway.afterRecv] at member
      split at member
      · rcases List.mem_append.mp member with old | new
        · exact Or.inl old
        · rw [List.mem_singleton.mp new]
          exact Or.inr rfl
      · dsimp only at member
        rw [drainPending_empty tidy, List.map_nil, List.append_nil] at member
        exact Or.inl member
      · split at member <;> exact Or.inl member
      · exact Or.inl member
    | ping =>
      rcases List.mem_append.mp member with old | new
      · exact Or.inl old
      · rw [List.mem_singleton.mp new]
        exact Or.inr rfl
    | request => exact absurd ⟨_, _, _, rfl⟩ asks
    | block waiting | unsendable waiting | single waiting =>
      exact Or.inl (waiting ▸ List.mem_cons_of_mem _ member)
    | _ => exact Or.inl member

/-- An operation in flight was there before, or comes from the queue. -/
private theorem placed_step (ran : g.step env act = some g') (holds : Holds g'.server.devices place op) :
    Holds g.server.devices place op ∨ ∃ entry ∈ g.queue, op.createdAt = entry.2.createdAt := by
  by_cases other : act = .dispatch
  · subst other
    cases gateway_move ran with
    | block | unsendable => exact Or.inl holds
    | @single addr op queue server task midCounter waiting placed =>
      cases placed
      have called : g.server.devices.apply (.placeInFlight addr (tokenOfId op.id)
          { op with attempts := op.attempts + 1 }) = some _ := rfl
      rcases holds_apply called holds with old | ⟨_, same, -⟩
      · exact Or.inl old
      · refine Or.inr ⟨_, waiting ▸ List.mem_cons_self, ?_⟩
        exact congrArg (·.createdAt) (Op.placeInFlight.inj same).2.2.symm
  · exact Or.inl (holds_step other ran holds)

/-- The stamps of the operations lie in the past. -/
structure Stamped (w : Watched) : Prop where
  tidy : Tidy w.gateway.server.devices.byId
  queued : ∀ entry ∈ w.gateway.queue, entry.2.createdAt ≤ w.gateway.server.clock
  placed : ∀ place op, Holds w.gateway.server.devices place op → op.createdAt ≤ w.placedAt place

theorem placedAt_step (ran : step env w act = some next) (place : UInt32 × Token) :
    next.placedAt place =
      if flying next.gateway.server.devices place = flying w.gateway.server.devices place then
        w.placedAt place
      else w.gateway.server.clock := by
  obtain ⟨g, -, rfl⟩ := Option.map_eq_some_iff.mp ran
  rfl

theorem stamped_step (stamped : Stamped w) (ran : step env w act = some next) : Stamped next where
  tidy := tidy_step stamped.tidy (gateway_step ran)
  queued entry member := by
    refine Nat.le_trans ?_ (Nat.le.intro (clock_step (gateway_step ran)).symm)
    rcases queued_step stamped.tidy (gateway_step ran) member with old | now
    · exact stamped.queued entry old
    · exact Nat.le_of_eq now
  placed place op holds := by
    rw [placedAt_step ran]
    split
    · rename_i same
      rw [flying_eq_some.mpr holds] at same
      exact stamped.placed place op (flying_eq_some.mp same.symm)
    · rename_i changed
      rcases placed_step (gateway_step ran) holds with old | ⟨entry, member, same⟩
      · exact absurd ((flying_eq_some.mpr holds).trans (flying_eq_some.mpr old).symm) changed
      · exact same ▸ stamped.queued entry member

/-- `timeout_in_flight` leaves no operation that has timed out. -/
theorem left_untimed {maxSecs : Nat} (holds : Holds (r.timeoutInFlight now maxSecs).2 place op) :
    Holds r place op ∧ timedOut now maxSecs op = false := by
  obtain ⟨found, stored, entry⟩ := holds
  simp only [timeoutInFlight, Table.lookup_mapVals] at stored
  obtain ⟨dev, before, rfl⟩ := Option.map_eq_some_iff.mp stored
  refine ⟨⟨dev, before, Table.lookup_of_filterVals entry⟩, ?_⟩
  have kept := Table.keep_of_filterVals entry
  exact Bool.eq_false_of_not_eq_true' kept

theorem operations_keep (stamped : Stamped w) (ran : step env w act = some next) :
    operations.Keeps w next := by
  have stepped := gateway_step ran
  have last := madeAt_step ran .timeoutOps
  split at last
  · rename_i made
    refine .look last fun place t there => ?_
    obtain ⟨op, flies, rfl⟩ := Option.map_eq_some_iff.mp there
    have holds := flying_eq_some.mp flies
    rw [made_server stepped made, Server.housekeepingStep, (makes_eq made).2] at holds
    obtain ⟨before, young⟩ := left_untimed holds
    rw [placedAt_step ran, if_pos (flies.trans (flying_eq_some.mpr before).symm)]
    simp only [timedOut, decide_eq_false_iff_not, Nat.not_lt] at young
    refine Nat.lt_of_lt_of_le (before_of_elapsedSecs young) ?_
    exact Nat.add_le_add_right (stamped.placed place op before) _
  · refine .other last fun place t there => ?_
    obtain ⟨op, flies, rfl⟩ := Option.map_eq_some_iff.mp there
    rw [placedAt_step ran]
    split
    · rename_i same
      exact Or.inr ⟨_, Option.map_eq_some_iff.mpr ⟨op, same ▸ flies, rfl⟩, Nat.le_refl _⟩
    · exact Or.inl (Nat.lt_add_of_pos_right (Nat.mul_pos (Nat.succ_pos _) (Nat.succ_pos _)))

/-! ## Sessions -/

/-- A session that waits was waiting before, or begins now. -/
private theorem session_step {next : Server} {action : Action} {token : Token}
    {session : BootstrapSession} (ran : s.step env action = some next)
    (held : next.boot.byToken.lookup token = some session) :
    s.boot.byToken.lookup token = some session ∨ session.startedAt = s.clock := by
  have moved := step_transition ran
  generalize reached : next.core = last at moved
  have there : last.boot.byToken.lookup token = some session := by
    rw [← reached]
    exact held
  cases moved with
  | begin position free =>
    -- the core does not keep the clock, so the time is read off the step itself
    have position : s.recv = .begin _ _ := position
    have free : s.boot.byEndpoint.lookup _ = none := free
    simp only [Server.step, Server.recvStep, position, BootstrapRegistry.begin, free] at ran
    cases ran
    simp only [BootstrapRegistry.allocInner, Table.lookup_insert_if] at held
    split at held
    · cases held
      exact Or.inr rfl
    · exact Or.inl held
  | complete => exact Or.inl (Table.lookup_of_erase there)
  | @expire now maxSecs byToken byEndpoint expired =>
    have kept : (s.boot.expireStale now maxSecs).byToken.lookup token = some session :=
      (congrArg (·.byToken.lookup token) expired).trans there
    rw [expireStale_eq] at kept
    exact Or.inl (expired_lookup _ kept).2
  | phase _ move => cases move <;> exact Or.inl there
  | _ => exact Or.inl there

/-- `expire_stale` leaves no session that is stale. -/
theorem left_fresh {boot : BootstrapRegistry} {maxSecs : Nat} {token : Token}
    {session : BootstrapSession}
    (held : (boot.expireStale now maxSecs).byToken.lookup token = some session) :
    elapsedSecs now session.startedAt ≤ maxSecs := by
  rw [expireStale_eq] at held
  obtain ⟨kept, before⟩ := expired_lookup _ held
  refine Nat.not_lt.mp fun late => kept (List.mem_map.mpr ⟨⟨token, session⟩, ?_, rfl⟩)
  exact List.mem_filter.mpr ⟨AList.mem_lookup_iff.mp before, decide_eq_true late⟩

theorem sessions_keep (ran : step env w act = some next) : sessions.Keeps w next := by
  have stepped := gateway_step ran
  have last := madeAt_step ran .expireSessions
  split at last
  · rename_i made
    refine .look last fun token t there => ?_
    obtain ⟨session, held, rfl⟩ := Option.map_eq_some_iff.mp there
    rw [made_server stepped made, Server.housekeepingStep, (makes_eq made).2] at held
    exact before_of_elapsedSecs (left_fresh held)
  · refine .other last fun token t there => ?_
    obtain ⟨session, held, rfl⟩ := Option.map_eq_some_iff.mp there
    have waited : w.gateway.server.boot.byToken.lookup token = some session ∨
        session.startedAt = w.gateway.server.clock := by
      rcases server_part stepped with same | ⟨action, moved, -⟩
      · exact Or.inl (same ▸ held)
      · exact session_step moved held
    rcases waited with before | now
    · exact Or.inr ⟨_, Option.map_eq_some_iff.mpr ⟨session, before, rfl⟩, Nat.le_refl _⟩
    · left
      rw [now]
      exact Nat.lt_add_of_pos_right (Nat.mul_pos (Nat.succ_pos _) (Nat.succ_pos _))

/-! ## Contacts -/

theorem contacts_due {t : Nat} : contacts.due w id = some t ↔
    ∃ dev, w.gateway.server.devices.byId.lookup id = some dev ∧ dev.online = some true ∧
      t = lastAttempt dev + Housekeeping.onlinePingInterval := by
  simp only [contacts, Option.bind_eq_some_iff]
  refine exists_congr fun dev => and_congr_right fun _ => ?_
  split
  · rename_i online
    simp [online, eq_comm]
  · rename_i offline
    simp [offline]

/-- An online device has just been attended to, or was online before with no
later attempt. -/
theorem attempted_step (ran : g.step env act = some g')
    (stored : g'.server.devices.byId.lookup id = some found) (online : found.online = some true) :
    g.server.clock ≤ lastAttempt found ∨ ∃ dev, g.server.devices.byId.lookup id = some dev ∧
      dev.online = some true ∧ lastAttempt dev ≤ lastAttempt found := by
  rcases device_step ran stored with before | ⟨op, timed, ⟨dev, before, rfl⟩ | added⟩
  · exact Or.inr ⟨found, before, online, Nat.le_refl _⟩
  · have kept (same : deviceAfter g.server.devices id dev op = dev) :
        g.server.clock ≤ lastAttempt (deviceAfter g.server.devices id dev op) ∨
          ∃ dev', g.server.devices.byId.lookup id = some dev' ∧ dev'.online = some true ∧
            lastAttempt dev' ≤ lastAttempt (deviceAfter g.server.devices id dev op) := by
      rw [same] at online ⊢
      exact Or.inr ⟨dev, before, online, Nat.le_refl _⟩
    cases op with
    | register now endpoint addr reg =>
      by_cases mine : g.server.devices.byEndpoint.lookup endpoint = some id
      · left
        rw [← timed now rfl, deviceAfter, if_pos mine]
        exact Nat.le_max_left ..
      · exact kept (if_neg mine)
    | touch now addr =>
      by_cases mine : g.server.devices.byAddr.lookup addr = some id
      · left
        rw [← timed now rfl, deviceAfter, if_pos mine]
        split <;> exact Nat.le_max_left ..
      · exact kept (if_neg mine)
    | setDeviceOffline now addr =>
      by_cases marked : g.server.devices.byAddr.lookup addr = some id ∧ dev.online = some true
      · simp [deviceAfter, marked] at online
      · exact kept (if_neg marked)
    | takePingCandidates now offlineInterval onlineInterval offlineMaxDuration =>
      by_cases needs : needsPing now offlineInterval onlineInterval offlineMaxDuration dev
      · left
        rw [← timed now rfl, deviceAfter, if_pos needs]
        exact Nat.le_max_right ..
      · exact kept (if_neg needs)
    | renewRegistration | drainPending | placeInFlight | completeInFlight | mergeDeviceStateByAddr
    | restoreDeviceState =>
      right
      refine ⟨dev, before, ?_⟩
      revert online
      simp only [deviceAfter]
      split <;> exact fun online => ⟨online, Nat.le_refl _⟩
    | _ => exact Or.inr ⟨dev, before, online, Nat.le_refl _⟩
  · obtain ⟨now, endpoint, addr, reg, rfl, -, -, rfl⟩ := added
    left
    rw [← timed now rfl]
    exact Nat.le_max_left ..

/-- After `take_ping_candidates` every online device was attended to within the
interval. -/
theorem left_attended {offlineInterval onlineInterval offlineMaxDuration : Nat}
    (positive : 0 < onlineInterval)
    (stored : (r.takePingCandidates now offlineInterval onlineInterval
      offlineMaxDuration).2.byId.lookup id = some found)
    (online : found.online = some true) : now < lastAttempt found + onlineInterval := by
  simp only [takePingCandidates, Table.lookup_mapVals] at stored
  obtain ⟨dev, before, rfl⟩ := Option.map_eq_some_iff.mp stored
  by_cases needs : needsPing now offlineInterval onlineInterval offlineMaxDuration dev
  · rw [if_pos needs]
    exact Nat.lt_of_le_of_lt (Nat.le_max_right ..) (Nat.lt_add_of_pos_right positive)
  · rw [if_neg needs] at online ⊢
    simp only [needsPing, online, Bool.and_eq_true, decide_eq_true_eq, not_and_or] at needs
    rcases needs with heard | recent
    · exact Nat.lt_of_lt_of_le (before_of_elapsed heard)
        (Nat.add_le_add_right (Nat.le_max_left ..) _)
    · cases ping : dev.lastPingAttempt with
      | none => simp [ping] at recent
      | some at_ =>
        simp only [ping, Option.all_some, decide_eq_true_eq] at recent
        refine Nat.lt_of_lt_of_le (before_of_elapsed recent) (Nat.add_le_add_right ?_ _)
        rw [lastAttempt, ping]
        exact Nat.le_max_right ..

theorem contacts_keep (ran : step env w act = some next) : contacts.Keeps w next := by
  have stepped := gateway_step ran
  have last := madeAt_step ran .takePings
  have positive : 0 < Housekeeping.onlinePingInterval := Nat.mul_pos (Nat.succ_pos _) (Nat.succ_pos _)
  split at last
  · rename_i made
    refine .look last fun id t there => ?_
    obtain ⟨dev, stored, online, rfl⟩ := contacts_due.mp there
    rw [made_server stepped made, Server.housekeepingStep, (makes_eq made).2] at stored
    exact left_attended positive stored online
  · refine .other last fun id t there => ?_
    obtain ⟨found, stored, online, rfl⟩ := contacts_due.mp there
    rcases attempted_step stepped stored online with now | ⟨dev, before, there, order⟩
    · exact Or.inl (Nat.lt_of_le_of_lt now (Nat.lt_add_of_pos_right positive))
    · exact Or.inr ⟨_, contacts_due.mpr ⟨dev, before, there, rfl⟩, Nat.add_le_add_right order _⟩

/-! ## Runs -/

/-- What the looks rely on. -/
structure Steady (w : Watched) : Prop where
  keyed : Keyed w.gateway.server.devices
  stamped : Stamped w
  past : ∀ call, w.madeAt call ≤ w.gateway.server.clock

private theorem keyed_step (keyed : Keyed g.server.devices) (ran : g.step env act = some g') :
    Keyed g'.server.devices := by
  rcases server_part ran with same | ⟨action, stepped, -⟩
  · rwa [same]
  · have made := registry_step stepped
    cases called : registryCall g.server action with
    | none =>
      rw [called] at made
      exact Option.some.inj made ▸ keyed
    | some op =>
      rw [called] at made
      exact keyed_apply keyed made

theorem steady_step (steady : Steady w) (ran : step env w act = some next) : Steady next where
  keyed := keyed_step steady.keyed (gateway_step ran)
  stamped := stamped_step steady.stamped ran
  past call := by
    refine Nat.le_trans ?_ (Nat.le.intro (clock_step (gateway_step ran)).symm)
    rw [madeAt_step ran]
    split
    · exact Nat.le_refl _
    · exact steady.past call

/-- What is there before the first step. -/
structure Restored (w : Watched) (now : Instant) : Prop where
  madeAt : ∀ call, w.madeAt call = now
  device : ∀ id dev, w.gateway.server.devices.byId.lookup id = some dev →
    ∃ snapshot, dev = restoredDevice now snapshot
  operation : ∀ place op, ¬Holds w.gateway.server.devices place op
  session : ∀ token, w.gateway.server.boot.byToken.lookup token = none

theorem start_restored (initial : (machine env period).start w) :
    Steady w ∧ ∃ now, Restored w now ∧ w.gateway.server.clock ≤ now + period := by
  obtain ⟨seed, serverUri, included, now, snapshots, clock, trafficClass, -, ids, endpoints, order,
    soon, rfl⟩ := initial
  have sound := RegistryIndexes.indexes_restore now snapshots RegistryIndexes.indexes_new ids endpoints
    fun s _ => by simp [new]
  obtain ⟨tidy, empty⟩ := restored_tidy now snapshots
  have none_ (place : UInt32 × Token) (op : PendingOperation) :
      ¬Holds (DeviceRegistry.new.restore now snapshots) place op := by
    rintro ⟨dev, stored, entry⟩
    have member : op ∈ held (DeviceRegistry.new.restore now snapshots).byId :=
      List.mem_flatMap.mpr ⟨dev, Table.mem_values.mpr ⟨place.1, stored⟩,
        Table.mem_values.mpr ⟨place.2, entry⟩⟩
    rw [empty] at member
    cases member
  refine ⟨⟨keyed_of_indexes sound, ⟨tidy, ?_, ?_⟩, fun call => order⟩, now, ⟨?_, ?_, none_, ?_⟩, soon⟩
  · exact fun entry member => absurd member List.not_mem_nil
  · exact fun place op holds => absurd holds (none_ place op)
  · exact fun call => rfl
  · intro id dev stored
    rcases PingSchedule.restore_lookup snapshots DeviceRegistry.new stored with before | restored
    · cases before
    · exact restored
  · exact fun token => rfl

/-- A look that keeps its things on time, from the start of the gateway. -/
theorem reached_within {ι : Type} (sweep : Sweep Watched ι) (call : Housekeeping)
    (clock : ∀ w, sweep.clock w = w.gateway.server.clock) (last : ∀ w, sweep.last w = w.madeAt call)
    (initially : ∀ w now, Restored w now → ∀ i t, sweep.due w i = some t → now < t)
    (keeps : ∀ w act next, Steady w → step env w act = some next → sweep.Keeps w next)
    (reached : (machine env period).Reaches (Punctual period) w) :
    ∀ i t, sweep.due w i = some t → w.gateway.server.clock < t + period := by
  have steady {w : Watched} (reached : (machine env period).Reaches (Punctual period) w) : Steady w :=
    reached.invariant Steady (fun w initial => (start_restored initial).1)
      fun w act next _ steady _ ran => steady_step steady ran
  rw [← clock w]
  refine reached.within sweep (fun w initial => ?_) fun w act next reached allowed ran => ?_
  · obtain ⟨steady, now, restored, soon⟩ := start_restored initial
    rw [Sweep.OnTime, clock, last]
    refine ⟨fun i t there => ?_, steady.past call, ?_⟩
    · rw [last, restored.madeAt]
      exact initially w now restored i t there
    · rw [restored.madeAt]
      exact soon
  · refine ⟨keeps w act next (steady reached) ran, ?_, fun _ => ?_⟩
    · rw [clock, clock]
      exact Nat.le.intro (clock_step (gateway_step ran)).symm
    · rw [Sweep.OnTime, clock, last]
      exact onTime_step ran allowed ((steady reached).past call)

/-- **Nothing is kept long after its time.** While the housekeeping loop makes
each of its calls at least once a period, a registration that is not renewed
outlives its lifetime and the grace by at most a second and a period, an
operation is in flight for at most 61 seconds and a period, and a GET /0/0
session waits for at most 31 seconds and a period. -/
theorem discarded_in_time (reached : (machine env period).Reaches (Punctual period) w) :
    (∀ id dev, w.gateway.server.devices.byId.lookup id = some dev →
      w.gateway.server.clock < dev.lastRegisteredAt + fromSecs (dev.lifetime.toNat + 31) + period) ∧
    (∀ place op, Holds w.gateway.server.devices place op →
      w.gateway.server.clock < w.placedAt place + fromSecs 61 + period) ∧
    ∀ token session, w.gateway.server.boot.byToken.lookup token = some session →
      w.gateway.server.clock < session.startedAt + fromSecs 31 + period := by
  refine ⟨fun id dev stored => ?_, fun place op holds => ?_, fun token session held => ?_⟩
  · refine reached_within registrations .expireDevices (fun _ => rfl) (fun _ => rfl) ?_
      (fun w act next steady ran => registrations_keep steady.keyed ran) reached id _
      (Option.map_eq_some_iff.mpr ⟨dev, stored, rfl⟩)
    intro w now restored id t there
    obtain ⟨dev, stored, rfl⟩ := Option.map_eq_some_iff.mp there
    obtain ⟨snapshot, rfl⟩ := restored.device id dev stored
    exact Nat.lt_add_of_pos_right (Nat.mul_pos (Nat.succ_pos _) (Nat.succ_pos _))
  · refine reached_within operations .timeoutOps (fun _ => rfl) (fun _ => rfl) ?_
      (fun w act next steady ran => operations_keep steady.stamped ran) reached place _
      (Option.map_eq_some_iff.mpr ⟨op, flying_eq_some.mpr holds, rfl⟩)
    intro w now restored place t there
    obtain ⟨op, flies, -⟩ := Option.map_eq_some_iff.mp there
    exact absurd (flying_eq_some.mp flies) (restored.operation place op)
  · refine reached_within sessions .expireSessions (fun _ => rfl) (fun _ => rfl) ?_
      (fun w act next steady ran => sessions_keep ran) reached token _
      (Option.map_eq_some_iff.mpr ⟨session, held, rfl⟩)
    intro w now restored token t there
    obtain ⟨session, held, -⟩ := Option.map_eq_some_iff.mp there
    rw [restored.session] at held
    cases held

/-- A device that is not included registers and is sent a reset; a minute later
the housekeeping loop looks, and another device asks to be bootstrapped. -/
def lateRun : List GatewayAction :=
  Peer.resetInFlight ++ .server (.advance (fromSecs 60)) ::
    List.replicate 4 (.server .housekeeping) ++ Peer.relay (Peer.post "bs" "hose") Peer.addr 5 ++
    [.server (.advance (fromSecs 30))]

private theorem late_reached :
    ∃ w dev op session, (machine Peer.env (fromSecs 60)).Reaches (Punctual (fromSecs 60)) w ∧
      w.gateway.server.clock = fromSecs 90 ∧
      w.gateway.server.devices.byId.lookup 1 = some dev ∧ dev.online = some true ∧
      Holds w.gateway.server.devices (1, tokenOfId 0x80000000) op ∧
      w.gateway.server.boot.byToken.lookup (tokenOfId 0x80000000) = some session := by
  obtain ⟨w, -, reached, seen⟩ := (machine Peer.env (fromSecs 60)).exec_reaches
    (Punctual (fromSecs 60)) ⟨Peer.gateway, fun _ => 0, fun _ => 0⟩ lateRun
    (fun w => decide (w.gateway.server.clock = fromSecs 90) &&
      ((w.gateway.server.devices.byId.lookup 1).any fun (dev : Device) => decide (dev.online = some true)) &&
      (flying w.gateway.server.devices (1, tokenOfId 0x80000000)).isSome &&
      (w.gateway.server.boot.byToken.lookup (tokenOfId 0x80000000)).isSome)
    ⟨0, some "coaps://gateway", [], 0, [], 0, 0, by simp, by simp, by simp, Nat.le_refl _,
      Nat.zero_le _, rfl⟩ (by decide +kernel)
  simp only [Bool.and_eq_true, decide_eq_true_eq, Option.any_eq_true, Option.isSome_iff_exists] at seen
  obtain ⟨⟨⟨clock, dev, stored, online⟩, op, flies⟩, session, waits⟩ := seen
  exact ⟨w, dev, op, session, reached, clock, stored, online, flying_eq_some.mp flies, waits⟩

theorem late_discarded_in_time :
    ∃ w dev op session, (machine Peer.env (fromSecs 60)).Reaches (Punctual (fromSecs 60)) w ∧
      w.gateway.server.devices.byId.lookup 1 = some dev ∧
      Holds w.gateway.server.devices (1, tokenOfId 0x80000000) op ∧
      w.gateway.server.boot.byToken.lookup (tokenOfId 0x80000000) = some session ∧
      fromSecs 90 < dev.lastRegisteredAt + fromSecs (dev.lifetime.toNat + 31) + fromSecs 60 ∧
      fromSecs 90 < w.placedAt (1, tokenOfId 0x80000000) + fromSecs 61 + fromSecs 60 ∧
      fromSecs 90 < session.startedAt + fromSecs 31 + fromSecs 60 := by
  obtain ⟨w, dev, op, session, reached, clock, stored, -, holds, waits⟩ := late_reached
  obtain ⟨registered, placed, asked⟩ := discarded_in_time reached
  rw [clock] at registered placed asked
  exact ⟨w, dev, op, session, reached, stored, holds, waits, registered 1 dev stored,
    placed _ op holds, asked _ session waits⟩

/-- **No online device is forgotten.** While the housekeeping loop makes each of
its calls at least once a period, a device that counts as online was heard of or
taken for a ping within the ping interval and a period. -/
theorem online_attended (reached : (machine env period).Reaches (Punctual period) w)
    (stored : w.gateway.server.devices.byId.lookup id = some dev) (online : dev.online = some true) :
    w.gateway.server.clock < lastAttempt dev + Housekeeping.onlinePingInterval + period := by
  refine reached_within contacts .takePings (fun _ => rfl) (fun _ => rfl) ?_
    (fun w act next steady ran => contacts_keep ran) reached id _
    (contacts_due.mpr ⟨dev, stored, online, rfl⟩)
  -- what is restored is offline
  intro w now restored id t there
  obtain ⟨dev, stored, online, -⟩ := contacts_due.mp there
  obtain ⟨snapshot, rfl⟩ := restored.device id dev stored
  cases online

theorem late_online_attended :
    ∃ w dev, (machine Peer.env (fromSecs 60)).Reaches (Punctual (fromSecs 60)) w ∧
      w.gateway.server.devices.byId.lookup 1 = some dev ∧ dev.online = some true ∧
      fromSecs 90 < lastAttempt dev + Housekeeping.onlinePingInterval + fromSecs 60 := by
  obtain ⟨w, dev, -, -, reached, clock, stored, online, -, -⟩ := late_reached
  exact ⟨w, dev, reached, stored, online, clock ▸ online_attended reached stored online⟩

end Lwm2mServer.Deadlines
