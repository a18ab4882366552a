import Lwm2mServer.DeviceRecords
import Lwm2mServer.GatewaySteps
import Lwm2mServer.RecvSteps

/-! Connectivity pings to devices that are offline. The registry is run with a
record of every episode in which a device stays offline: when it began, and
when the device was returned by `take_ping_candidates` since then. The record
is kept from the calls and what they return; that the timestamps in the device
agree with it is the invariant. -/
namespace Lwm2mServer.PingSchedule
open Library DeviceRecords DeviceRegistry

/-- The arguments of `take_ping_candidates`, the same for all calls of a run. -/
structure Intervals where
  offline : Nat
  online : Nat
  offlineMax : Nat

/-- The pings are the times at which the device was a candidate, newest first. -/
structure Episode where
  start : Instant
  pings : List Instant
  deriving DecidableEq

structure Monitored where
  devices : DeviceRegistry
  clock : Instant
  episodes : UInt32 → Option Episode

/-- The clock reading of a call. -/
def timeOf : Op → Option Instant
  | .register now .. | .renewRegistration now .. | .touch now _ | .setDeviceOffline now _
  | .takePingCandidates now .. | .expireStale now _ | .timeoutInFlight now _ => some now
  | _ => none

/-- The call returns the device as a candidate. -/
def pinged (r : DeviceRegistry) (id : UInt32) : Op → Bool
  | .takePingCandidates now offlineInterval onlineInterval offlineMaxDuration =>
    (r.byId.lookup id).any (needsPing now offlineInterval onlineInterval offlineMaxDuration)
  | _ => false

/-- The record of a device after a call. An episode begins when the device is
marked offline and ends when it is touched, or another one registered under its
id. -/
def episodeAfter (r : DeviceRegistry) (id : UInt32) (episode : Option Episode) : Op → Option Episode
  | .setDeviceOffline now addr =>
    if (r.setDeviceOffline now addr).1.isSome ∧ r.byAddr.lookup addr = some id then some ⟨now, []⟩
    else episode
  | .touch _ addr => if r.byAddr.lookup addr = some id then none else episode
  | .register _ endpoint _ _ =>
    if r.byEndpoint.lookup endpoint = none ∧ r.nextId = id then none else episode
  | .takePingCandidates now offlineInterval onlineInterval offlineMaxDuration =>
    if pinged r id (.takePingCandidates now offlineInterval onlineInterval offlineMaxDuration) then
      episode.map fun e => { e with pings := now :: e.pings }
    else episode
  | _ => episode

/-- The call uses the intervals of the run. -/
def usual (intervals : Intervals) : Op → Bool
  | .takePingCandidates _ offlineInterval onlineInterval offlineMaxDuration =>
    offlineInterval = intervals.offline ∧ onlineInterval = intervals.online ∧
      offlineMaxDuration = intervals.offlineMax
  | _ => true

/-- What `restore` leaves: every device is in an episode. -/
def restored (now : Instant) (snapshots : List DeviceSnapshot) : Monitored where
  devices := DeviceRegistry.new.restore now snapshots
  clock := now
  episodes id := ((DeviceRegistry.new.restore now snapshots).byId.lookup id).map fun _ => ⟨now, []⟩

/-- A call at a time that does not lie before the last one. The record of a
device goes with the device. -/
def step (intervals : Intervals) (m : Monitored) (op : Op) : Option Monitored :=
  if m.clock ≤ (timeOf op).getD m.clock ∧ usual intervals op then
    (m.devices.apply op).map fun next =>
      { devices := next
        clock := (timeOf op).getD m.clock
        episodes := fun id =>
          (next.byId.lookup id).bind fun _ => episodeAfter m.devices id (m.episodes id) op }
  else none

def machine (intervals : Intervals) : Machine Monitored Op where
  start m := ∃ now snapshots, m = restored now snapshots
  step := step intervals

/-- At most this many times fit into a window if they are some interval apart. -/
def bound (intervals : Intervals) : Nat :=
  (intervals.offlineMax + intervals.offline - 1) / intervals.offline

/-- The pings of an episode keep to the schedule. -/
structure Paced (intervals : Intervals) (episode : Episode) : Prop where
  within : ∀ t ∈ episode.pings, episode.start ≤ t ∧ t < episode.start + intervals.offlineMax
  spaced : episode.pings.Pairwise fun later earlier => earlier + intervals.offline ≤ later
  count : episode.pings.length ≤ bound intervals

/-- The timestamps of a device agree with its record. -/
structure Tracked (intervals : Intervals) (clock : Instant) (dev : Device) (episode : Option Episode) :
    Prop where
  offline : dev.offlineSince.isSome ↔ dev.online = some false
  since : episode.map (·.start) = dev.offlineSince
  past : ∀ e ∈ episode, e.start ≤ clock
  within : ∀ e ∈ episode, ∀ t ∈ e.pings, e.start ≤ t ∧ t < e.start + intervals.offlineMax
  spaced : ∀ e ∈ episode, e.pings.Pairwise fun later earlier => earlier + intervals.offline ≤ later
  last : ∀ e ∈ episode, ∀ t ∈ e.pings.head?, dev.lastPingAttempt = some t

variable {intervals : Intervals} {m m' : Monitored} {r : DeviceRegistry} {op : Op} {id : UInt32}
  {dev found : Device} {episode : Option Episode} {clock later now : Instant}

/-! ## Counting times -/

/-- Times some gap apart lie at least as many gaps behind the first as there are
between them. -/
private theorem spaced_reach {gap start newest : Nat} {times : List Nat}
    (spaced : (newest :: times).Pairwise fun later earlier => earlier + gap ≤ later)
    (after : ∀ t ∈ newest :: times, start ≤ t) : start + times.length * gap ≤ newest := by
  induction times generalizing newest with
  | nil => simpa using after newest List.mem_cons_self
  | cons next rest ih =>
    obtain ⟨first, spaced⟩ := List.pairwise_cons.mp spaced
    have below := ih spaced fun t member => after t (List.mem_cons_of_mem _ member)
    have here := first next List.mem_cons_self
    rw [List.length_cons, Nat.add_mul, Nat.one_mul]
    omega

theorem length_spaced {gap start width : Nat} {times : List Nat} (positive : 0 < gap)
    (spaced : times.Pairwise fun later earlier => earlier + gap ≤ later)
    (window : ∀ t ∈ times, start ≤ t ∧ t < start + width) :
    times.length ≤ (width + gap - 1) / gap := by
  cases times with
  | nil => exact Nat.zero_le _
  | cons newest rest =>
    have reach := spaced_reach spaced fun t member => (window t member).1
    have inside := (window newest List.mem_cons_self).2
    rw [Nat.le_div_iff_mul_le positive, List.length_cons, Nat.add_mul, Nat.one_mul]
    omega

private theorem elapsed_apart {now since gap : Nat} (positive : 0 < gap)
    (enough : gap ≤ elapsed now since) : since + gap ≤ now := by
  rw [elapsed] at enough
  omega

private theorem elapsed_inside {now since width : Nat} (inside : elapsed now since < width) :
    now < since + width := by
  rw [elapsed] at inside
  omega

/-! ## One call -/

/-- The device is not concerned by the call. -/
private theorem Tracked.unconcerned (tracked : Tracked intervals clock dev episode)
    (order : clock ≤ later) (online : found.online = dev.online)
    (since : found.offlineSince = dev.offlineSince)
    (last : found.lastPingAttempt = dev.lastPingAttempt) : Tracked intervals later found episode where
  offline := by
    rw [online, since]
    exact tracked.offline
  since := tracked.since.trans since.symm
  past e member := Nat.le_trans (tracked.past e member) order
  within := tracked.within
  spaced := tracked.spaced
  last e member t first := last.trans (tracked.last e member t first)

/-- The device is there. -/
private theorem tracked_online (online : dev.online = some true) (since : dev.offlineSince = none) :
    Tracked intervals clock dev none where
  offline := by simp [online, since]
  since := by simp [since]
  past := by simp
  within := by simp
  spaced := by simp
  last := by simp

/-- An episode begins. -/
private theorem tracked_begins (online : dev.online = some false) (since : dev.offlineSince = some now)
    (order : now ≤ clock) : Tracked intervals clock dev (some ⟨now, []⟩) where
  offline := by simp [online, since]
  since := by simp [since]
  past := by simpa using order
  within := by simp
  spaced := by simp
  last := by simp

/-- The device is a candidate. -/
private theorem Tracked.pinged (tracked : Tracked intervals clock dev episode)
    (order : clock ≤ now) (positive : 0 < intervals.offline)
    (needs : needsPing now intervals.offline intervals.online intervals.offlineMax dev = true) :
    Tracked intervals now { dev with lastPingAttempt := some now }
      (episode.map fun e => { e with pings := now :: e.pings }) := by
  cases episode with
  | none => exact ⟨tracked.offline, tracked.since, by simp, by simp, by simp, by simp⟩
  | some e =>
    have since : dev.offlineSince = some e.start := tracked.since.symm
    have offline : dev.online = some false := tracked.offline.mp (by rw [since]; rfl)
    have past := tracked.past e rfl
    simp only [needsPing, offline, since, Option.any_some, Bool.and_eq_true, decide_eq_true_eq] at needs
    obtain ⟨window, pause⟩ := needs
    have gap : ∀ t ∈ e.pings.head?, t + intervals.offline ≤ now := by
      intro t first
      rw [tracked.last e rfl t first, Option.all_some, decide_eq_true_eq] at pause
      exact elapsed_apart positive pause
    constructor
    · exact tracked.offline
    · exact since.symm
    · rintro _ ⟨rfl⟩
      exact Nat.le_trans past order
    · rintro _ ⟨rfl⟩ t member
      rcases List.mem_cons.mp member with rfl | old
      · exact ⟨Nat.le_trans past order, elapsed_inside window⟩
      · exact tracked.within e rfl t old
    · rintro _ ⟨rfl⟩
      refine List.pairwise_cons.mpr ⟨fun t member => ?_, tracked.spaced e rfl⟩
      cases pings : e.pings with
      | nil =>
        rw [pings] at member
        cases member
      | cons newest rest =>
        have first := gap newest (by rw [pings]; rfl)
        have spaced := tracked.spaced e rfl
        rw [pings] at member spaced
        rcases List.mem_cons.mp member with rfl | older
        · exact first
        · have below := (List.pairwise_cons.mp spaced).1 t older
          exact Nat.le_trans below (Nat.le_trans (Nat.le_add_right _ _) first)
    · rintro _ ⟨rfl⟩ t ⟨rfl⟩
      rfl

private theorem setDeviceOffline_isSome {addr : SocketAddr} (known : r.byAddr.lookup addr = some id)
    (held : r.byId.lookup id = some dev) :
    (r.setDeviceOffline now addr).1.isSome ↔ dev.online = some true := by
  simp only [setDeviceOffline, known, held]
  split
  · simp [*]
  · simp [*]

/-- The call registers a new endpoint under the id. -/
def Registers (r : DeviceRegistry) (id : UInt32) (op : Op) : Prop :=
  ∃ now endpoint addr reg, op = .register now endpoint addr reg ∧
    r.byEndpoint.lookup endpoint = none ∧ r.nextId = id

/-- The device was in the registry before. -/
private theorem tracked_deviceAfter (positive : 0 < intervals.offline)
    (tracked : Tracked intervals clock dev episode) (order : clock ≤ (timeOf op).getD clock)
    (usually : usual intervals op = true) (held : r.byId.lookup id = some dev)
    (kept : ¬Registers r id op) :
    Tracked intervals ((timeOf op).getD clock) (deviceAfter r id dev op)
      (episodeAfter r id episode op) := by
  have same (found : Device) (online : found.online = dev.online)
      (since : found.offlineSince = dev.offlineSince)
      (last : found.lastPingAttempt = dev.lastPingAttempt) :
      Tracked intervals ((timeOf op).getD clock) found episode :=
    tracked.unconcerned order online since last
  cases op with
  | register now endpoint addr reg =>
    have old : ¬(r.byEndpoint.lookup endpoint = none ∧ r.nextId = id) := fun new =>
      kept ⟨now, endpoint, addr, reg, rfl, new⟩
    rw [episodeAfter, if_neg old, deviceAfter]
    split
    · exact same _ rfl rfl rfl
    · exact same _ rfl rfl rfl
  | touch now addr =>
    rw [episodeAfter, deviceAfter]
    by_cases known : r.byAddr.lookup addr = some id
    · rw [if_pos known, if_pos known]
      split
      · rename_i online
        refine tracked_online online (Option.not_isSome_iff_eq_none.mp fun since => ?_)
        rw [tracked.offline.mp since] at online
        cases online
      · exact tracked_online rfl rfl
    · rw [if_neg known, if_neg known]
      exact same dev rfl rfl rfl
  | setDeviceOffline now addr =>
    rw [episodeAfter, deviceAfter]
    by_cases known : r.byAddr.lookup addr = some id
    · simp only [setDeviceOffline_isSome known held, known, and_true, true_and]
      split
      · exact tracked_begins rfl rfl (Nat.le_refl _)
      · exact same dev rfl rfl rfl
    · rw [if_neg fun both => known both.1, if_neg fun both => known both.2]
      exact same dev rfl rfl rfl
  | takePingCandidates now offlineInterval onlineInterval offlineMaxDuration =>
    obtain ⟨rfl, rfl, rfl⟩ := of_decide_eq_true usually
    rw [episodeAfter, deviceAfter]
    simp only [PingSchedule.pinged, held, Option.any_some]
    split
    · exact tracked.pinged order positive ‹_›
    · exact same dev rfl rfl rfl
  | renewRegistration | drainPending | placeInFlight | completeInFlight | mergeDeviceStateByAddr
  | restoreDeviceState =>
    rw [episodeAfter, deviceAfter]
    · split
      · exact same _ rfl rfl rfl
      · exact same _ rfl rfl rfl
    all_goals simp
  | _ => exact same _ rfl rfl rfl

/-- A registration under the id puts a device there that is online. -/
private theorem registers_device {r' : DeviceRegistry} (new : Registers r id op)
    (ran : r.apply op = some r') (stored : r'.byId.lookup id = some found) :
    found.online = some true ∧ found.offlineSince = none ∧ episodeAfter r id episode op = none := by
  obtain ⟨now, endpoint, addr, reg, rfl, unknown, rfl⟩ := new
  obtain ⟨result, registered, rfl⟩ := Option.map_eq_some_iff.mp ran
  simp only [register, unknown, Option.some.injEq] at registered
  subst registered
  rw [AList.lookup_insert] at stored
  cases stored
  exact ⟨rfl, rfl, if_pos ⟨unknown, rfl⟩⟩

/-! ## Runs -/

def Sound (intervals : Intervals) (m : Monitored) : Prop :=
  ∀ id dev, m.devices.byId.lookup id = some dev → Tracked intervals m.clock dev (m.episodes id)

/-- The loop of `restore` leaves a registry whose devices are all restored now. -/
theorem restore_lookup (snapshots : List DeviceSnapshot) (r : DeviceRegistry)
    (stored : (r.restore now snapshots).byId.lookup id = some found) :
    r.byId.lookup id = some found ∨ ∃ s, found = restoredDevice now s := by
  induction snapshots generalizing r with
  | nil => exact Or.inl stored
  | cons s rest ih =>
    rcases ih (restoreOne now r s) stored with before | restored
    · simp only [restoreOne, Table.lookup_insert_if] at before
      split at before
      · cases before
        exact Or.inr ⟨s, rfl⟩
      · exact Or.inl before
    · exact Or.inr restored

private theorem sound_restored (now : Instant) (snapshots : List DeviceSnapshot) :
    Sound intervals (restored now snapshots) := by
  intro id dev stored
  have episode : (restored now snapshots).episodes id = some ⟨now, []⟩ := by
    change ((DeviceRegistry.new.restore now snapshots).byId.lookup id).map _ = _
    rw [show (DeviceRegistry.new.restore now snapshots).byId.lookup id = some dev from stored]
    rfl
  rw [episode]
  rcases restore_lookup snapshots DeviceRegistry.new stored with before | ⟨s, rfl⟩
  · cases before
  · exact tracked_begins rfl rfl (Nat.le_refl _)

private theorem sound_step (positive : 0 < intervals.offline) (sound : Sound intervals m)
    (ran : step intervals m op = some m') : Sound intervals m' := by
  unfold step at ran
  split at ran
  · rename_i allowed
    obtain ⟨next, applied, rfl⟩ := Option.map_eq_some_iff.mp ran
    intro id found stored
    have episode : (next.byId.lookup id).bind (fun _ => episodeAfter m.devices id (m.episodes id) op) =
        episodeAfter m.devices id (m.episodes id) op := by
      rw [show next.byId.lookup id = some found from stored]
      rfl
    dsimp only
    rw [episode]
    by_cases new : Registers m.devices id op
    · obtain ⟨online, since, ended⟩ := registers_device new applied stored
      rw [ended]
      exact tracked_online online since
    · rcases apply_device applied stored with ⟨dev, held, rfl⟩ | added
      · exact tracked_deviceAfter positive (sound id dev held) allowed.1 allowed.2 held new
      · obtain ⟨now, endpoint, addr, reg, called, unknown, rfl, -⟩ := added
        exact absurd ⟨now, endpoint, addr, reg, called, unknown, rfl⟩ new
  · cases ran

theorem reaches_sound (positive : 0 < intervals.offline)
    (reached : (machine intervals).Reaches Machine.always m) : Sound intervals m := by
  refine reached.invariant _ ?_ ?_
  · rintro _ ⟨now, snapshots, rfl⟩
    exact sound_restored now snapshots
  · exact fun _ _ _ _ sound _ ran => sound_step positive sound ran

theorem Tracked.paced (tracked : Tracked intervals clock dev episode)
    (positive : 0 < intervals.offline) : ∀ e ∈ episode, Paced intervals e := fun e member =>
  { within := tracked.within e member
    spaced := tracked.spaced e member
    count := length_spaced positive (tracked.spaced e member) (tracked.within e member) }

/-- The list of a call has the devices that the record says were pinged. -/
theorem mem_candidates (r : DeviceRegistry) (now : Instant) (intervals : Intervals)
    (endpoint : String) (addr : SocketAddr) :
    (endpoint, addr) ∈
        (r.takePingCandidates now intervals.offline intervals.online intervals.offlineMax).1 ↔
      ∃ id dev, r.byId.lookup id = some dev ∧ dev.endpoint = endpoint ∧ dev.addr = addr ∧
        pinged r id
          (.takePingCandidates now intervals.offline intervals.online intervals.offlineMax) := by
  simp only [takePingCandidates, List.mem_map, List.mem_filter, Table.mem_values, Prod.mk.injEq]
  constructor
  · rintro ⟨dev, ⟨⟨id, held⟩, needs⟩, named, placed⟩
    exact ⟨id, dev, held, named, placed, by simpa only [pinged, held, Option.any_some] using needs⟩
  · rintro ⟨id, dev, held, named, placed, needs⟩
    refine ⟨dev, ⟨⟨id, held⟩, ?_⟩, named, placed⟩
    simpa only [pinged, held, Option.any_some] using needs

/-! ## The server's housekeeping -/

/-- The constants of `housekeeping.rs`. -/
def configured : Intervals where
  offline := Housekeeping.offlinePingInterval
  online := Housekeeping.onlinePingInterval
  offlineMax := Housekeeping.offlinePingMaxDuration

/-- The server started on devices that were restored before. -/
def booted (env : Env) : Machine Server Action where
  start s := ∃ seed serverUri included now snapshots clock, now ≤ clock ∧
    s = Server.initial seed serverUri included (DeviceRegistry.new.restore now snapshots) clock
  step := Server.step env

/-- The server's calls read the clock and use the configured intervals. -/
theorem registryCall_usual {s : Server} {action : Action}
    (called : GatewaySteps.registryCall s action = some op) :
    usual configured op = true ∧ ∀ now ∈ timeOf op, now = s.clock := by
  have unclocked (quiet : timeOf op = none) (plain : usual configured op = true) :
      usual configured op = true ∧ ∀ now ∈ timeOf op, now = s.clock :=
    ⟨plain, by simp [quiet]⟩
  cases action with
  | recv choice =>
    simp only [GatewaySteps.registryCall] at called
    split at called <;> cases called
    all_goals first
      | exact unclocked rfl rfl
      | exact ⟨rfl, fun _ same => (Option.some.inj same).symm⟩
  | exclusion i =>
    obtain ⟨task, -, called⟩ := Option.bind_eq_some_iff.mp called
    split at called <;> cases called
    · exact unclocked rfl rfl
    · exact unclocked rfl rfl
  | removal i =>
    obtain ⟨task, -, rfl⟩ := Option.map_eq_some_iff.mp called
    exact unclocked rfl rfl
  | housekeeping =>
    simp only [GatewaySteps.registryCall] at called
    split at called <;> cases called
    · exact ⟨rfl, fun _ same => (Option.some.inj same).symm⟩
    · exact ⟨rfl, fun _ same => (Option.some.inj same).symm⟩
    · exact ⟨by simp [usual, configured], fun _ same => (Option.some.inj same).symm⟩
  | client call =>
    cases call <;> cases called
    · exact unclocked rfl rfl
    · exact unclocked rfl rfl
    · exact ⟨rfl, fun _ same => (Option.some.inj same).symm⟩
  | _ => cases called

/-- The server's devices are those of a run with the configured intervals. -/
def Follows (s : Server) : Prop :=
  ∃ m, (machine configured).Reaches Machine.always m ∧ m.devices = s.devices ∧ m.clock ≤ s.clock

/-- **The server runs the registry this way.** -/
theorem booted_follows {env : Env} {s : Server} (reached : (booted env).Reaches Machine.always s) :
    Follows s := by
  refine reached.invariant Follows ?_ ?_
  · rintro _ ⟨seed, serverUri, included, now, snapshots, clock, order, rfl⟩
    exact ⟨restored now snapshots, .start ⟨now, snapshots, rfl⟩, rfl, order⟩
  · rintro s action next - ⟨m, reached, devices, order⟩ - ran
    have later := Nat.le_trans order (RecvSteps.clock_step ran)
    have made := GatewaySteps.registry_step ran
    cases called : GatewaySteps.registryCall s action with
    | none =>
      rw [called] at made
      exact ⟨m, reached, devices.trans (Option.some.inj made), later⟩
    | some op =>
      rw [called, ← devices] at made
      obtain ⟨usually, timed⟩ := registryCall_usual called
      have time : m.clock ≤ (timeOf op).getD m.clock ∧ (timeOf op).getD m.clock ≤ next.clock := by
        cases read : timeOf op with
        | none => exact ⟨Nat.le_refl _, later⟩
        | some now =>
          rw [Option.getD_some, timed now read]
          exact ⟨order, RecvSteps.clock_step ran⟩
      have stepped : step configured m op = some
          { devices := next.devices
            clock := (timeOf op).getD m.clock
            episodes := fun id => (next.devices.byId.lookup id).bind fun _ =>
              episodeAfter m.devices id (m.episodes id) op } := by
        rw [step, if_pos ⟨time.1, usually⟩]
        rw [show m.devices.apply op = some next.devices from made]
        rfl
      exact ⟨_, .step reached trivial stepped, rfl, time.2⟩

/-! ## The schedule -/

/-- **Pings are paced and bounded.** In every state of every run a device has
an `offline_since` exactly while it is offline, and so it has an episode, which
began then; the pings of the episode keep to the schedule. -/
theorem offline_pings_paced (positive : 0 < intervals.offline)
    (reached : (machine intervals).Reaches Machine.always m) :
    (∀ id dev, m.devices.byId.lookup id = some dev →
      (dev.offlineSince.isSome ↔ dev.online = some false) ∧
      (m.episodes id).map (·.start) = dev.offlineSince ∧
      ∀ episode ∈ m.episodes id, Paced intervals episode) ∧
    (∀ now endpoint addr, (endpoint, addr) ∈ (m.devices.takePingCandidates now intervals.offline
        intervals.online intervals.offlineMax).1 ↔
      ∃ id dev, m.devices.byId.lookup id = some dev ∧ dev.endpoint = endpoint ∧ dev.addr = addr ∧
        pinged m.devices id
          (.takePingCandidates now intervals.offline intervals.online intervals.offlineMax)) ∧
    bound configured = 24 := by
  refine ⟨fun id dev held => ?_, fun now endpoint addr => ?_, by decide⟩
  · have tracked := reaches_sound positive reached id dev held
    exact ⟨tracked.offline, tracked.since, tracked.paced positive⟩
  · exact mem_candidates m.devices now intervals endpoint addr

/-- A device that was persisted and registers from `roamed` between two pings. -/
def persisted : DeviceSnapshot where
  id := 1
  endpoint := "mower"
  addr := Peer.addr
  lifetime := 86400
  objects := []
  objectVersions := ∅
  lwm2mVersion := "1.0"
  bindingMode := "U"
  endOfLife := 0

def roamed : SocketAddr := .v6 0xfc000006010000000000000000000002 5683 0 0

def roaming : List Op :=
  let housekeeping now := Op.takePingCandidates now Housekeeping.offlinePingInterval
    Housekeeping.onlinePingInterval Housekeeping.offlinePingMaxDuration
  [housekeeping 0, housekeeping (fromSecs 600),
    .register (fromSecs 660) "mower" roamed ⟨86400, [], ∅, "1.0", "U"⟩, housekeeping (fromSecs 900)]

theorem roaming_pings_paced :
    ∃ m dev, (machine configured).Reaches Machine.always m ∧ m.devices.byId.lookup 1 = some dev ∧
      dev.addr = roamed ∧ m.episodes 1 = some ⟨0, [fromSecs 900, 0]⟩ ∧
      Paced configured ⟨0, [fromSecs 900, 0]⟩ ∧ dev.online = some false := by
  obtain ⟨m, -, reached, seen⟩ := (machine configured).exec_reaches Machine.always
    (restored 0 [persisted]) roaming
    (fun m => (m.devices.byId.lookup 1).any (fun dev => dev.addr = roamed) &&
      decide (m.episodes 1 = some ⟨0, [fromSecs 900, 0]⟩))
    ⟨0, [persisted], rfl⟩ (by decide +kernel)
  obtain ⟨there, recorded⟩ := Bool.and_eq_true_iff.mp seen
  obtain ⟨dev, held, placed⟩ := (Option.any_eq_true _ _).mp there
  have episode := of_decide_eq_true recorded
  obtain ⟨offline, since, paced⟩ := (offline_pings_paced (by decide) reached).1 1 dev held
  refine ⟨m, dev, reached, held, of_decide_eq_true placed, episode, paced _ episode, offline.mp ?_⟩
  rw [← since, episode]
  rfl

end Lwm2mServer.PingSchedule
