import Lwm2mServer.Json
import Lwm2mServer.Library.Machine
import Lwm2mServer.Library.Tasks

/-! `event.rs`: the events that go out to all subscribers. Every task sends
through a clone of one `EventSender`; a call takes the next number in one step
and puts its message on the broadcast channel in another, so messages can come
out of order. -/
namespace Lwm2mServer.Events
open Library Json

/-- A call of one of the `send_*` functions. -/
inductive EventCall where
  | sendIncludable (id : UInt32) (identifier : String) (inclusionStarted inclusionCompleted : Bool)
  | sendDeviceData (endpoint : String) (payload : Json)
  | sendConnectionStatus (endpoint : String) (online : Bool)
  | sendDeviceDeleted (endpoint : String)
  | sendFotaResult (endpoint : String) (operationId : UInt32) (success : Bool)

/-- The fields every message ends with. -/
def metadata (seq : UInt32) : String × Json :=
  ("metadata", .object [("source", .str "lwm2mserver"), ("sequence", .int seq.toNat)])

/-- The message a call puts on the channel, at a Unix time. -/
def EventCall.message (ts : Nat) (seq : UInt32) : EventCall → Json
  | .sendIncludable id identifier inclusionStarted inclusionCompleted =>
    .arr [.object
      [("op", .str "update"),
        ("entity", .object [("service", .str "lwm2mserver"),
          ("path", .str ("includable_device/" ++ toString id.toNat))]),
        ("payload", .object
          [("identifier", .object [("vs", .str identifier), ("ts", .int ts)]),
            ("protocol", .object [("vi", .int 1), ("ts", .int ts)]),
            ("inclusion_started", .object [("vb", .bool inclusionStarted), ("ts", .int ts)]),
            ("inclusion_completed", .object [("vb", .bool inclusionCompleted), ("ts", .int ts)]),
            ("inclusion_error", .object [("vi", .int 0), ("ts", .int ts)]),
            ("_urn", .str "urn:oma:lwm2m:x:28170:0.1")]),
        metadata seq]]
  | .sendDeviceData endpoint payload =>
    .arr [.object
      [("op", .str "update"), ("entity", .object [("device", .str endpoint), ("path", .str "")]),
        ("payload", payload), metadata seq]]
  | .sendConnectionStatus endpoint online =>
    .arr [.object
      [("op", .str "update"),
        ("entity", .object [("device", .str endpoint), ("path", .str "connection_status")]),
        ("payload", .object
          [("_urn", .str "urn:oma:lwm2m:x:28171"),
            ("0", .object [("online", .object [("vb", .bool online), ("ts", .int ts)])])]),
        metadata seq]]
  | .sendDeviceDeleted endpoint =>
    .arr [.object
      [("op", .str "delete"), ("entity", .object [("device", .str endpoint), ("path", .str "")]),
        metadata seq]]
  | .sendFotaResult endpoint operationId success =>
    .arr [.object
      [("op", .str "update"),
        ("entity", .object [("device", .str endpoint), ("path", .str "firmware_update/0/package")]),
        ("payload", .object
          [("success", .bool success), ("operation_id", .int operationId.toNat), ("ts", .int ts)]),
        metadata seq]]

/-- The sequence number of a message. -/
def sequence : Json → Option Nat
  | .arr [message] => ((message.get "metadata").get "sequence").asU64
  | _ => none

/-- Where a call is. -/
inductive CallPc where
  /-- About to `fetch_add`. -/
  | number
  /-- About to put the message on the channel. -/
  | broadcast (message : Json)
  | returned

structure Call where
  event : EventCall
  pc : CallPc

/-- The sender all tasks share: the counter, the calls, everything that was put
on the channel, oldest first, and for each subscriber how much of it had gone
before. A subscriber that does not lag sees the rest. -/
structure EventSender where
  seq : UInt32 := 0
  calls : Tasks Call := {}
  channel : List Json := []
  subscribers : List Nat := []

inductive EventAction where
  /-- A task calls one of the functions. -/
  | call (event : EventCall)
  /-- A call moves on, at a Unix time. -/
  | step (id : Nat) (ts : Nat)
  | subscribe

namespace EventSender

def callStep (s : EventSender) (id : Nat) (ts : Nat) : Option EventSender := do
  let call ← s.calls.get? id
  let goto pc := s.calls.update id { call with pc }
  match call.pc with
  | .number =>
    return { s with
      seq := s.seq + 1
      calls := goto (.broadcast (call.event.message ts s.seq)) }
  | .broadcast message =>
    return { s with
      channel := s.channel ++ [message]
      calls := goto .returned }
  | .returned => none

def step (s : EventSender) : EventAction → Option EventSender
  | .call event => some { s with calls := s.calls.spawn ⟨event, .number⟩ }
  | .step id ts => s.callStep id ts
  | .subscribe => some { s with subscribers := s.channel.length :: s.subscribers }

/-- Every interleaving of any number of calls. -/
def machine : Machine EventSender EventAction where
  start s := s = {}
  step := step

end EventSender

/-- The numbers on the channel grow, and every subscriber sees each number from
some point on, once and in order. -/
def InOrder (s : EventSender) : Prop :=
  s.calls.count < 2 ^ 32 →
    (s.channel.filterMap sequence).Pairwise (· < ·) ∧
    ∀ position ∈ s.subscribers, ∃ first, (s.channel.drop position).map sequence =
      (List.range' first (s.channel.length - position)).map some

/-- The number a call holds. -/
def holds (call : Call) : Option Nat :=
  match call.pc with
  | .broadcast message => sequence message
  | _ => none

/-- A message is put on the channel only when no call holds an earlier
number. -/
def oldestFirst (s : EventSender) : EventAction → Bool
  | .step id _ => ((s.calls.get? id).bind holds).all fun number =>
    s.calls.all.all fun other => (holds other).all fun earlier => number ≤ earlier
  | _ => true

def OldestFirst (s : EventSender) (action : EventAction) : Prop := oldestFirst s action = true

instance (s : EventSender) (action : EventAction) : Decidable (OldestFirst s action) :=
  inferInstanceAs (Decidable (_ = _))

variable {s next : EventSender}

theorem sequence_message (event : EventCall) (ts : Nat) (seq : UInt32) :
    sequence (event.message ts seq) = some seq.toNat := by
  have read : (Json.int seq.toNat).asU64 = some seq.toNat := by
    rw [asU64, Int.toNat_natCast]
    exact if_pos ⟨Int.natCast_nonneg _, Nat.lt_trans seq.toNat_lt (by decide)⟩
  cases event <;>
    simp only [EventCall.message, sequence, metadata, Json.get, Json.object, field_setField,
      List.foldl_cons, List.foldl_nil, String.reduceEq, if_true, if_false, Option.getD_some, read]

/-! ## Numbers that were taken -/

/-- A call that has its number. -/
def numbered (call : Call) : Bool :=
  match call.pc with
  | .number => false
  | _ => true

/-- How many numbers were taken. -/
def taken (s : EventSender) : Nat := s.calls.all.countP numbered

/-- The numbers on the channel are the first ones, and those taken since are
each held by one call. -/
structure Current (s : EventSender) : Prop where
  counter : s.seq = UInt32.ofNat (taken s)
  sent : s.channel.map sequence = (List.range s.channel.length).map some
  older : s.channel.length ≤ taken s
  held : ∀ n, s.channel.length ≤ n → n < taken s →
    ∃ i call, s.calls.get? i = some call ∧ holds call = some n
  only : ∀ i call n, s.calls.get? i = some call → holds call = some n →
    s.channel.length ≤ n ∧ n < taken s
  once : ∀ i call j other n, s.calls.get? i = some call → holds call = some n →
    s.calls.get? j = some other → holds other = some n → i = j
  readable : ∀ i call message, s.calls.get? i = some call → call.pc = .broadcast message →
    (sequence message).isSome

theorem taken_le (s : EventSender) : taken s ≤ s.calls.count := List.countP_le_length

theorem current_start : Current {} := by
  constructor
  · rfl
  · rfl
  · exact Nat.le_refl 0
  · intro n _ below
    cases below
  · intro i call n held
    cases (Tasks.get?_empty i).symm.trans held
  · intro i call j other n held
    cases (Tasks.get?_empty i).symm.trans held
  · intro i call message held
    cases (Tasks.get?_empty i).symm.trans held

/-- A new call holds no number. -/
private theorem current_call (current : Current s) (event : EventCall) :
    Current { s with calls := s.calls.spawn ⟨event, .number⟩ } := by
  have same : taken { s with calls := s.calls.spawn ⟨event, .number⟩ } = taken s := by
    simp [taken, Tasks.spawn, numbered]
  have before {i : Nat} {call : Call} {n : Nat}
      (held : (s.calls.spawn ⟨event, .number⟩).get? i = some call) (number : holds call = some n) :
      s.calls.get? i = some call := by
    rw [Tasks.get?_spawn] at held
    split at held
    · cases held
      cases number
    · exact held
  constructor
  · rw [same]
    exact current.counter
  · exact current.sent
  · rw [same]
    exact current.older
  · intro n above below
    rw [same] at below
    obtain ⟨i, call, held, number⟩ := current.held n above below
    refine ⟨i, call, ?_, number⟩
    rw [Tasks.get?_spawn, if_neg (Nat.ne_of_lt (s.calls.lt_count held))]
    exact held
  · intro i call n held number
    rw [same]
    exact current.only i call n (before held number) number
  · intro i call j other n held number held' number'
    exact current.once i call j other n (before held number) number (before held' number') number'
  · intro i call message held pc
    rw [Tasks.get?_spawn] at held
    split at held
    · cases held
      cases pc
    · exact current.readable i call message held pc

private theorem current_number (current : Current s) {id : Nat} {call : Call}
    (running : s.calls.get? id = some call) (pc : call.pc = .number) (ts : Nat)
    (few : s.calls.count < 2 ^ 32) :
    Current { s with
      seq := s.seq + 1
      calls := s.calls.update id { call with pc := .broadcast (call.event.message ts s.seq) } } := by
  have below : taken s < 2 ^ 32 := Nat.lt_of_le_of_lt (taken_le s) few
  have moved := s.calls.get?_update running
    { call with pc := .broadcast (call.event.message ts s.seq) }
  have more : taken { s with
      seq := s.seq + 1
      calls := s.calls.update id { call with pc := .broadcast (call.event.message ts s.seq) } } =
        taken s + 1 := by
    have counted := s.calls.countP_update running
      { call with pc := .broadcast (call.event.message ts s.seq) } numbered
    have first : numbered call = false := by rw [numbered, pc]
    rw [first] at counted
    exact counted
  have mine : holds { call with pc := .broadcast (call.event.message ts s.seq) } = some (taken s) := by
    rw [holds]
    dsimp only
    rw [sequence_message, current.counter, UInt32.toNat_ofNat', Nat.mod_eq_of_lt below]
  have idle : holds call = none := by rw [holds, pc]
  constructor
  · rw [more]
    dsimp only
    rw [current.counter, UInt32.ofNat_add]
    rfl
  · exact current.sent
  · rw [more]
    exact Nat.le_succ_of_le current.older
  · intro n above within
    rw [more] at within
    by_cases new : n = taken s
    · refine ⟨id, _, (moved id).trans (if_pos rfl), ?_⟩
      rw [new]
      exact mine
    · obtain ⟨i, other, held, number⟩ := current.held n above (by omega)
      refine ⟨i, other, (moved i).trans ?_, number⟩
      rw [if_neg]
      · exact held
      · rintro rfl
        rw [running] at held
        cases held
        rw [idle] at number
        cases number
  · intro i other n held number
    rw [more]
    rw [moved i] at held
    split at held
    · cases held
      rw [mine] at number
      cases number
      exact ⟨current.older, Nat.lt_succ_self _⟩
    · obtain ⟨above, within⟩ := current.only i other n held number
      exact ⟨above, Nat.lt_succ_of_lt within⟩
  · intro i one j two n held number held' number'
    rw [moved i] at held
    rw [moved j] at held'
    split at held <;> split at held'
    · rename_i here there
      rw [here, there]
    · cases held
      rw [mine] at number
      cases number
      exact absurd (current.only j two _ held' number').2 (Nat.lt_irrefl _)
    · cases held'
      rw [mine] at number'
      cases number'
      exact absurd (current.only i one _ held number).2 (Nat.lt_irrefl _)
    · exact current.once i one j two n held number held' number'
  · intro i other message held pc
    rw [moved i] at held
    split at held
    · cases held
      cases pc
      rw [sequence_message]
      rfl
    · exact current.readable i other message held pc

/-- The oldest number goes out: it is the next one of the channel. -/
private theorem current_broadcast (current : Current s) {id : Nat} {call : Call} {message : Json}
    (running : s.calls.get? id = some call) (pc : call.pc = .broadcast message)
    (oldest : ∀ number, sequence message = some number → ∀ other ∈ s.calls.all, ∀ earlier,
      holds other = some earlier → number ≤ earlier) :
    Current { s with
      channel := s.channel ++ [message]
      calls := s.calls.update id { call with pc := .returned } } := by
  have moved := s.calls.get?_update running { call with pc := .returned }
  have same : taken { s with
      channel := s.channel ++ [message]
      calls := s.calls.update id { call with pc := .returned } } = taken s := by
    have counted := s.calls.countP_update running { call with pc := .returned } numbered
    have before : numbered call = true := by rw [numbered, pc]
    rw [before] at counted
    exact Nat.add_right_cancel counted
  obtain ⟨number, reads⟩ := Option.isSome_iff_exists.mp
    (current.readable id call message running pc)
  have mine : holds call = some number := by simp only [holds, pc, reads]
  obtain ⟨above, within⟩ := current.only id call number running mine
  -- the next number of the channel is held by a call, and ours is not later
  have next : number = s.channel.length := by
    obtain ⟨i, other, held, first⟩ :=
      current.held s.channel.length (Nat.le_refl _) (Nat.lt_of_le_of_lt above within)
    exact Nat.le_antisymm (oldest number reads other (List.mem_of_getElem? held) _ first) above
  have before {i : Nat} {other : Call} {n : Nat}
      (held : (s.calls.update id { call with pc := .returned }).get? i = some other)
      (numbered : holds other = some n) : s.calls.get? i = some other ∧ i ≠ id := by
    rw [moved i] at held
    split at held
    · cases held
      cases numbered
    · rename_i other
      exact ⟨held, other⟩
  constructor
  · rw [same]
    exact current.counter
  · simp only [List.map_append, List.map_cons, List.map_nil, List.length_append,
      List.length_singleton, List.range_succ, current.sent, reads, next]
  · rw [same]
    simp only [List.length_append, List.length_singleton]
    omega
  · intro n least below
    rw [same] at below
    simp only [List.length_append, List.length_singleton] at least
    obtain ⟨i, other, held, own⟩ := current.held n (by omega) below
    refine ⟨i, other, (moved i).trans ?_, own⟩
    rw [if_neg]
    · exact held
    · rintro rfl
      rw [running] at held
      cases held
      rw [mine] at own
      cases own
      omega
  · intro i other n held own
    rw [same]
    obtain ⟨held, apart⟩ := before held own
    obtain ⟨least, below⟩ := current.only i other n held own
    refine ⟨?_, below⟩
    have different : n ≠ number := by
      rintro rfl
      exact apart (current.once i other id call n held own running mine)
    simp only [List.length_append, List.length_singleton]
    omega
  · intro i one j two n held own held' own'
    exact current.once i one j two n (before held own).1 own (before held' own').1 own'
  · intro i other message held pc
    rw [moved i] at held
    split at held
    · cases held
      cases pc
    · exact current.readable i other message held pc

/-! ## Runs -/

private theorem count_step {action : EventAction} (ran : s.step action = some next) :
    s.calls.count ≤ next.calls.count := by
  cases action with
  | call event =>
    cases ran
    rw [Tasks.count_spawn]
    exact Nat.le_succ _
  | step id ts =>
    obtain ⟨call, held, ran⟩ := Option.bind_eq_some_iff.mp ran
    dsimp only at ran
    split at ran
    · cases ran
      exact Nat.le_of_eq (s.calls.count_update id _).symm
    · cases ran
      exact Nat.le_of_eq (s.calls.count_update id _).symm
    · cases ran
  | subscribe =>
    cases ran
    exact Nat.le_refl _

private theorem current_step {action : EventAction} (current : Current s)
    (allowed : OldestFirst s action) (few : s.calls.count < 2 ^ 32)
    (ran : s.step action = some next) : Current next := by
  cases action with
  | call event =>
    cases ran
    exact current_call current event
  | step id ts =>
    obtain ⟨call, held, ran⟩ := Option.bind_eq_some_iff.mp ran
    dsimp only at ran
    split at ran
    · rename_i pc
      cases ran
      exact current_number current held pc ts few
    · rename_i message pc
      cases ran
      refine current_broadcast current held pc fun number reads other member earlier holding => ?_
      have mine : holds call = some number := by simp only [holds, pc, reads]
      simp only [OldestFirst, oldestFirst, held, Option.bind_some, mine, Option.all_some,
        List.all_eq_true] at allowed
      simpa [holding] using allowed other member
    · cases ran
  | subscribe =>
    cases ran
    exact ⟨current.counter, current.sent, current.older, current.held, current.only, current.once,
      current.readable⟩

/-- **The numbers come in order** in every run that puts a message on the
channel only when no call holds an earlier number. -/
theorem sequence_inOrder (reached : EventSender.machine.Reaches OldestFirst s) : InOrder s := by
  have current : s.calls.count < 2 ^ 32 → Current s := by
    refine reached.invariant (fun s => s.calls.count < 2 ^ 32 → Current s) ?_ ?_
    · rintro s rfl _
      exact current_start
    · intro s action next _ before allowed ran few
      have fewer : s.calls.count < 2 ^ 32 := Nat.lt_of_le_of_lt (count_step ran) few
      exact current_step (before fewer) allowed fewer ran
  intro few
  have sent := (current few).sent
  constructor
  · have numbers : s.channel.filterMap sequence = List.range s.channel.length := by
      have same : s.channel.filterMap sequence = (s.channel.map sequence).filterMap fun n => n := by
        rw [List.filterMap_map]
        rfl
      rw [same, sent, List.filterMap_map]
      exact List.filterMap_some
    rw [numbers]
    exact List.pairwise_lt_range
  · intro position _
    refine ⟨position, ?_⟩
    rw [List.map_drop, sent, ← List.map_drop, List.range_eq_range', List.drop_range', Nat.zero_add,
      Nat.mul_one]

/-! ## Two calls -/

/-- A device goes offline and comes online again, told by two tasks; both have
taken their numbers. -/
def twoCalls : List EventAction :=
  [.subscribe, .call (.sendConnectionStatus "mower" false), .call (.sendConnectionStatus "mower" true),
    .step 0 1700000000, .step 1 1700000000]

/-- The messages go out as their numbers were taken. -/
theorem twoCalls_inOrder : ∃ last,
    EventSender.machine.exec OldestFirst {} (twoCalls ++ [.step 0 1700000000, .step 1 1700000000]) =
      some last ∧ last.channel.map sequence = [some 0, some 1] ∧ InOrder last := by
  obtain ⟨last, ran, reached, ended⟩ := Machine.exec_reaches EventSender.machine OldestFirst {}
    (twoCalls ++ [.step 0 1700000000, .step 1 1700000000])
    (fun s => decide (s.channel.map sequence = [some 0, some 1])) rfl (by decide +kernel)
  exact ⟨last, ran, of_decide_eq_true ended, sequence_inOrder reached⟩

/-- The second task is faster: subscribers see 1 before 0, and the mower offline
for good. -/
theorem twoCalls_overtaken : ∃ last, EventSender.machine.Reaches Machine.always last ∧
    last.channel.map sequence = [some 1, some 0] ∧ ¬ InOrder last := by
  obtain ⟨last, ran, reached, ended⟩ := Machine.exec_reaches EventSender.machine Machine.always {}
    (twoCalls ++ [.step 1 1700000000, .step 0 1700000000])
    (fun s => decide (s.channel.map sequence = [some 1, some 0]) &&
      decide (s.channel.filterMap sequence = [1, 0] ∧ s.calls.count = 2)) rfl (by decide +kernel)
  obtain ⟨order, numbers⟩ := Bool.and_eq_true_iff.mp ended
  obtain ⟨numbers, few⟩ := of_decide_eq_true numbers
  refine ⟨last, reached, of_decide_eq_true order, fun inOrder => ?_⟩
  have grows := (inOrder (by rw [few]; decide)).1
  rw [numbers] at grows
  exact absurd grows (by decide)

end Lwm2mServer.Events
