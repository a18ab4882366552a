import Lwm2mServer.BlockStream
import Lwm2mServer.RetransmissionEnd

/-! The message ids of the requests. The dispatch task has one counter, which
wraps and skips zero. A single request takes the next id; for a block-wise write
as many are set aside as it has blocks of the initial size, and the write then
counts on its own from the first of them. Ids are numbered here in the order the
counter hands them out, so that two messages have the same id when their numbers
are a multiple of a round apart. -/
namespace Lwm2mServer.MessageIds
open Library BlockStream BlockTransfer GatewaySteps RetransmissionEnd

/-- The ids in a round of the counter: all but zero. -/
def round : Nat := 65535

/-- The id with a number. -/
def idOf (number : Nat) : UInt16 := UInt16.ofNat (number % round + 1)

/-- A message with the number of its id. -/
structure Message where
  number : Nat
  packet : Packet

/-- The numbers set aside for a block-wise write that it has not used. -/
structure Span where
  next : Nat
  stop : Nat

/-- The gateway, with the numbers of its tasks and the messages that were sent,
newest first. A message that is sent again is the same message. -/
structure Traced where
  gateway : Gateway
  handedOut : Nat := 0
  singles : Tasks Nat := {}
  spans : Tasks Span := {}
  messages : List Message := []

/-- How many ids `dispatch_op` takes for a command. -/
def idsFor : LwM2mCommand → Nat
  | .write _ value _ =>
    if Client.blockThreshold < value.length then
      (value.length + Client.blockThreshold - 1) / Client.blockThreshold
    else 1
  | _ => 1

/-- The first copy of a block is still to be sent. -/
def freshBlock : BlockPc → Bool
  | .arm block | .send block _ => decide (block.retransmits = 0)
  | _ => false

/-- What a retransmission task sends for the first time in its next step. -/
def firstSend (task : Retransmission) : Option Packet :=
  if task.pc = .send ∧ task.attempts = 0 then some task.packet else none

/-- The same for a block-wise write. -/
def firstBlock (task : BlockWrite) : Option Packet :=
  match task.pc with
  | .send block _ => if block.retransmits = 0 then some block.packet else none
  | _ => none

/-- A message joins those that were sent. -/
def Traced.log (t : Traced) (number : Nat) (packet : Option Packet) (sent : Bool) : List Message :=
  if sent then (packet.map (Message.mk number)).toList ++ t.messages else t.messages

/-- A block-wise write that has built a block has used a number. -/
def Span.after (span : Span) (task after : BlockWrite) : Span :=
  match task.pc with
  | .next => if freshBlock after.pc then { span with next := span.next + 1 } else span
  | _ => span

def observe (env : Env) (t : Traced) (g : Gateway) : GatewayAction → Traced
  | .dispatch =>
    match t.gateway.queue.head? with
    | none => { t with gateway := g }
    | some (_, op) =>
      { t with
        gateway := g
        handedOut := t.handedOut + idsFor op.command
        singles := if (placing env t.gateway).isSome then t.singles.spawn t.handedOut else t.singles
        spans := if large op.command then
            t.spans.spawn ⟨t.handedOut, t.handedOut + idsFor op.command⟩
          else t.spans }
  | .retransmit i choice =>
    match t.gateway.retransmissions.get? i, t.singles.get? i with
    | some task, some number =>
      { t with gateway := g, messages := t.log number (firstSend task) choice.sent }
    | _, _ => { t with gateway := g }
  | .blockWrite i choice =>
    match t.gateway.blockWrites.get? i, g.blockWrites.get? i, t.spans.get? i with
    | some task, some after, some span =>
      { t with
        gateway := g
        spans := t.spans.update i (span.after task after)
        messages := t.log (span.next - 1) (firstBlock task) choice.sent }
    | _, _, _ => { t with gateway := g }
  | _ => { t with gateway := g }

def machine (env : Env) : Machine Traced GatewayAction where
  start t := (Gateway.machine env).start t.gateway ∧ t = { gateway := t.gateway }
  step t act := (t.gateway.step env act).map fun g => observe env t g act

/-- In every stretch of fewer messages than a round has ids, no two have the
same id and none has zero. -/
def Distinct (t : Traced) : Prop :=
  ∀ stretch, stretch <:+: t.messages → stretch.length < round →
    (stretch.map (·.packet.messageId)).Nodup ∧ 0 ∉ stretch.map (·.packet.messageId)

/-! ## When the ids are distinct -/

/-- At most one round was handed out in all, or the ids right before this one
were the last ones used, in their order. -/
def InOrder (t : Traced) (number : Nat) : Prop :=
  t.handedOut ≤ round ∨
    ∀ entry ∈ (t.messages.take (round - 2)).zipIdx, entry.1.number + entry.2 + 1 = number

instance (t : Traced) (number : Nat) : Decidable (InOrder t number) :=
  inferInstanceAs (Decidable (_ ∨ _))

/-- The ids for a block-wise write do not go beyond the last id of a round. -/
def WithinRound (g : Gateway) : Prop :=
  ∀ entry ∈ g.queue.head?, large entry.2.command = true →
    g.midCounter.toNat + idsFor entry.2.command ≤ round + 1

instance (g : Gateway) : Decidable (WithinRound g) :=
  inferInstanceAs (Decidable (∀ entry ∈ _, _ → _))

/-- A block-wise write takes no more ids than were set aside, and its blocks are
sent in order. -/
def Allotted (t : Traced) (task : BlockWrite) (span : Span) (choice : Choice) : Prop :=
  (task.pc = .next → task.offset < task.payload.length → span.next < span.stop) ∧
    ((firstBlock task).isSome → choice.sent = true → InOrder t (span.next - 1))

instance : ∀ pc : BlockPc, Decidable (pc = .next)
  | .next => isTrue rfl
  | .arm _ | .send .. | .wait .. | .disarm .. | .markOffline | .report _ | .ended => isFalse nofun

instance (t : Traced) (task : BlockWrite) (span : Span) (choice : Choice) :
    Decidable (Allotted t task span choice) :=
  inferInstanceAs (Decidable ((_ → _ → _) ∧ (_ → _ → _)))

def Guarded (t : Traced) : GatewayAction → Prop
  | .dispatch => WithinRound t.gateway
  | .retransmit i choice => ∀ task ∈ t.gateway.retransmissions.get? i, ∀ number ∈ t.singles.get? i,
      (firstSend task).isSome → choice.sent = true → InOrder t number
  | .blockWrite i choice => ∀ task ∈ t.gateway.blockWrites.get? i, ∀ span ∈ t.spans.get? i,
      Allotted t task span choice
  | _ => True

instance (t : Traced) : ∀ act, Decidable (Guarded t act)
  | .dispatch => inferInstanceAs (Decidable (WithinRound _))
  | .retransmit _ _ => inferInstanceAs (Decidable (∀ task ∈ _, ∀ number ∈ _, _ → _ → InOrder _ _))
  | .blockWrite _ _ => inferInstanceAs (Decidable (∀ task ∈ _, ∀ span ∈ _, Allotted _ _ _ _))
  | .setClass .. | .server _ | .ping | .request .. => isTrue trivial

variable {env : Env} {s : Server} {g g' : Gateway} {act : GatewayAction} {t t' : Traced}
  {task : BlockWrite} {choice : Choice} {number i : Nat} {span : Span}

/-! ## Ids and their numbers -/

private theorem toNat_idOf (number : Nat) : (idOf number).toNat = number % round + 1 := by
  have below : number % round < round := Nat.mod_lt _ (by decide)
  simp only [round] at below
  simp only [idOf, round, UInt16.toNat_ofNat']
  omega

private theorem idOf_ne_zero (number : Nat) : idOf number ≠ 0 := by
  intro zero
  have value := toNat_idOf number
  rw [zero] at value
  simp at value

/-- Numbers less than a round apart have different ids. -/
private theorem idOf_ne {first second : Nat} (order : first < second) (near : second < first + round) :
    idOf first ≠ idOf second := by
  intro same
  have values := congrArg UInt16.toNat same
  rw [toNat_idOf, toNat_idOf] at values
  simp only [round] at values near
  omega

/-- Counting on gives the next ids, as long as the round is not exceeded. -/
private theorem skipMids_idOf {taken : Nat} (some_ : 0 < taken)
    (within : (idOf number).toNat + taken ≤ round + 1) :
    Client.skipMids (idOf number) taken = idOf (number + taken) := by
  have before := toNat_idOf number
  have after := toNat_idOf (number + taken)
  have below : number % round < round := Nat.mod_lt _ (by decide)
  apply UInt16.toNat.inj
  rw [after]
  have most (mid : UInt16) : (max mid 1).toNat = max mid.toNat 1 := by
    have chosen : max mid 1 = if mid ≤ 1 then 1 else mid := rfl
    rw [chosen]
    split
    · rename_i low
      exact (Nat.max_eq_right (UInt16.le_iff_toNat_le.mp low)).symm
    · rename_i high
      have above : 1 < mid.toNat := UInt16.lt_iff_toNat_lt.mp (UInt16.not_le.mp high)
      exact (Nat.max_eq_left (Nat.le_of_lt above)).symm
  rw [Client.skipMids, most, UInt16.toNat_add, UInt16.toNat_ofNat', before]
  simp only [round] at within before below ⊢
  omega

/-- The next id never exceeds the round. -/
private theorem skipMids_one (number : Nat) : Client.skipMids (idOf number) 1 = idOf (number + 1) := by
  refine skipMids_idOf Nat.one_pos ?_
  have below : number % round < round := Nat.mod_lt _ (by decide)
  rw [toNat_idOf]
  omega

/-! ## A step of a block-wise write -/

/-- All a step does to the ids of a block-wise write: it builds the next block
with the next id, or goes on with the block it has. -/
inductive IdMove (task after : BlockWrite) : Prop where
  | builds {block : Block} (head : task.pc = .next) (left : task.offset < task.payload.length)
      (pc : after.pc = .arm block) (first : block.retransmits = 0)
      (id : block.packet.messageId = task.mid) (mid : after.mid = Client.skipMids task.mid 1)
  | keeps (mid : after.mid = task.mid) (fresh : freshBlock after.pc = true → freshBlock task.pc = true)
      (sent : (firstBlock task).isSome → freshBlock after.pc = false)
      (block : ∀ block, atBlock after.pc = some block →
        ∃ before, atBlock task.pc = some before ∧ block.packet = before.packet)

private theorem received_ids (block : Block) (packet : Packet) :
    (task.received block packet).task.mid = task.mid ∧
      freshBlock (task.received block packet).task.pc = false ∧
      atBlock (task.received block packet).task.pc = none := by
  unfold BlockWrite.received
  split
  · split <;> exact ⟨rfl, rfl, rfl⟩
  · exact ⟨rfl, rfl, rfl⟩
  · exact ⟨rfl, rfl, rfl⟩

private theorem id_move {outcome : ClientOutcome BlockWrite}
    (moved : task.step env s choice = some outcome) : IdMove task outcome.task := by
  -- the task leaves its block, or has none
  have leaves (mid : outcome.task.mid = task.mid) (fresh : freshBlock outcome.task.pc = false)
      (none_ : atBlock outcome.task.pc = none) : IdMove task outcome.task := by
    refine .keeps mid (fun now => ?_) (fun _ => fresh) fun block now => ?_
    · rw [fresh] at now
      cases now
    · rw [none_] at now
      cases now
  unfold BlockWrite.step at moved
  split at moved
  · rename_i head
    dsimp only at moved
    split at moved
    · rename_i left
      split at moved
      · cases moved
        exact leaves rfl rfl rfl
      · cases moved
        exact .builds head left rfl rfl rfl rfl
    · cases moved
      exact leaves rfl rfl rfl
  · rename_i block pc
    cases moved
    refine .keeps rfl (fun fresh => by simpa [pc, freshBlock] using fresh) (fun sends => ?_) ?_
    · simp [firstBlock, pc] at sends
    · rintro _ ⟨rfl⟩
      exact ⟨block, by rw [pc]; rfl, rfl⟩
  · rename_i block channel pc
    cases moved
    have after : freshBlock (if choice.sent then BlockPc.wait block channel else .disarm block false) =
        false := by split <;> rfl
    refine .keeps rfl (fun fresh => ?_) (fun _ => after) fun other now => ?_
    · exact absurd (after.symm.trans fresh) nofun
    · refine ⟨block, by rw [pc]; rfl, ?_⟩
      dsimp only at now
      split at now <;> cases now <;> rfl
  · rename_i block channel pc
    split at moved
    · cases moved
      obtain ⟨mid, fresh, none_⟩ := @received_ids task block _
      exact leaves mid fresh none_
    · cases moved
      exact leaves rfl rfl rfl
    · split at moved
      · cases moved
        refine .keeps rfl nofun (fun _ => rfl) ?_
        rintro _ ⟨rfl⟩
        exact ⟨block, by rw [pc]; rfl, rfl⟩
      · cases moved
  · rename_i block timedOut pc
    dsimp only at moved
    split at moved
    · cases moved
      refine .keeps rfl (fun fresh => ?_) (fun _ => ?_) ?_
      · simp [freshBlock] at fresh
      · simp [freshBlock]
      · rintro _ ⟨rfl⟩
        exact ⟨block, by rw [pc]; rfl, rfl⟩
    · cases moved
      exact leaves rfl rfl rfl
  · cases moved
    refine leaves rfl ?_ ?_
    all_goals
      dsimp only
      split <;> rfl
  · cases moved
    exact leaves rfl rfl rfl
  · cases moved

/-! ## Who has a number -/

inductive Owner where
  | single (task : Nat)
  | block (task : Nat)
  deriving DecidableEq

/-- The first number a block-wise write has not sent. -/
def Span.unsent (span : Span) (pc : BlockPc) : Nat := if freshBlock pc then span.next - 1 else span.next

/-- A task will send the message with this number, or may do so. -/
def Owns (t : Traced) : Owner → Nat → Prop
  | .single i, number => ∃ task, t.gateway.retransmissions.get? i = some task ∧
      t.singles.get? i = some number ∧ (firstSend task).isSome
  | .block i, number => ∃ task span, t.gateway.blockWrites.get? i = some task ∧
      t.spans.get? i = some span ∧ span.unsent task.pc ≤ number ∧ number < span.stop

/-- The ids of a block-wise write are those of its numbers. -/
structure Counts (task : BlockWrite) (span : Span) : Prop where
  mid : task.mid = idOf span.next
  order : span.next ≤ span.stop
  block : ∀ block, atBlock task.pc = some block →
    0 < span.next ∧ block.packet.messageId = idOf (span.next - 1)

/-- The tasks have the ids of their numbers. -/
structure Labelled (t : Traced) : Prop where
  counter : t.gateway.midCounter = idOf t.handedOut
  singles : t.singles.count = t.gateway.retransmissions.count
  spans : t.spans.count = t.gateway.blockWrites.count
  single : ∀ i task number, t.gateway.retransmissions.get? i = some task →
    t.singles.get? i = some number → task.packet.messageId = idOf number
  block : ∀ i task span, t.gateway.blockWrites.get? i = some task → t.spans.get? i = some span →
    Counts task span

/-- No number is used twice, and messages with the same id are far apart. -/
structure Unmixed (t : Traced) : Prop where
  below : ∀ owner number, Owns t owner number → number < t.handedOut
  unique : ∀ first second number, Owns t first number → Owns t second number → first = second
  unsent : ∀ owner number, Owns t owner number → ∀ message ∈ t.messages, message.number ≠ number
  sent : ∀ message ∈ t.messages, message.number < t.handedOut ∧
    message.packet.messageId = idOf message.number
  apart : EveryEvent (fun message earlier => message.packet.messageId ∉
    (earlier.take (round - 2)).map (·.packet.messageId)) t.messages

/-- Numbers are handed out to one task, or none are. -/
private theorem Unmixed.reserve {owner : Owner} (unmixed : Unmixed t) (messages : t'.messages = t.messages)
    (more : t.handedOut ≤ t'.handedOut)
    (owned : ∀ other number, Owns t' other number → Owns t other number ∨
      (other = owner ∧ t.handedOut ≤ number ∧ number < t'.handedOut)) : Unmixed t' where
  below other number owns := by
    rcases owned other number owns with old | ⟨-, -, new⟩
    · exact Nat.lt_of_lt_of_le (unmixed.below other number old) more
    · exact new
  unique first second number owns owns' := by
    rcases owned first number owns with old | ⟨rfl, fresh, -⟩
    · rcases owned second number owns' with old' | ⟨-, fresh, -⟩
      · exact unmixed.unique first second number old old'
      · exact absurd (unmixed.below first number old) (Nat.not_lt.mpr fresh)
    · rcases owned second number owns' with old' | ⟨rfl, -, -⟩
      · exact absurd (unmixed.below second number old') (Nat.not_lt.mpr fresh)
      · rfl
  unsent other number owns message member := by
    rw [messages] at member
    rcases owned other number owns with old | ⟨-, fresh, -⟩
    · exact unmixed.unsent other number old message member
    · exact Nat.ne_of_lt (Nat.lt_of_lt_of_le (unmixed.sent message member).1 fresh)
  sent message member := by
    rw [messages] at member
    have before := unmixed.sent message member
    exact ⟨Nat.lt_of_lt_of_le before.1 more, before.2⟩
  apart := messages ▸ unmixed.apart

/-- The id of a message that is sent in order is not among the last ones. -/
private theorem Unmixed.far {owner : Owner} (unmixed : Unmixed t) (owns : Owns t owner number)
    (order : InOrder t number) :
    idOf number ∉ (t.messages.take (round - 2)).map (·.packet.messageId) := by
  intro repeated
  obtain ⟨message, member, same⟩ := List.mem_map.mp repeated
  have known := unmixed.sent message (List.mem_of_mem_take member)
  rw [known.2] at same
  rcases order with first | consecutive
  · have below := unmixed.below owner number owns
    have apart := unmixed.unsent owner number owns message (List.mem_of_mem_take member)
    rcases Nat.lt_or_gt_of_ne apart with before | behind
    · exact idOf_ne before (by omega) same
    · exact idOf_ne behind (by have := known.1; omega) same.symm
  · obtain ⟨position, place, here⟩ := List.getElem_of_mem member
    have near : position < round - 2 := by
      rw [List.length_take] at place
      omega
    have entry : (message, position) ∈ (t.messages.take (round - 2)).zipIdx := by
      rw [← here]
      exact List.mk_mem_zipIdx_iff_getElem?.mpr (List.getElem?_eq_getElem place)
    have follows : message.number + position + 1 = number := consecutive _ entry
    refine idOf_ne ?_ ?_ same
    · omega
    · simp only [round] at near ⊢
      omega

/-- The owner of a number sends its message. -/
private theorem Unmixed.send {owner : Owner} {packet : Packet} (unmixed : Unmixed t)
    (owns : Owns t owner number) (id : packet.messageId = idOf number) (order : InOrder t number)
    (messages : t'.messages = ⟨number, packet⟩ :: t.messages) (same : t'.handedOut = t.handedOut)
    (owned : ∀ other probe, Owns t' other probe → Owns t other probe ∧ (other = owner → probe ≠ number)) :
    Unmixed t' where
  below other probe owns := by
    rw [same]
    exact unmixed.below other probe (owned other probe owns).1
  unique first second probe owns owns' :=
    unmixed.unique first second probe (owned first probe owns).1 (owned second probe owns').1
  unsent other probe owns' message member := by
    obtain ⟨before, rest⟩ := owned other probe owns'
    rw [messages] at member
    rcases List.mem_cons.mp member with rfl | old
    · intro equal
      cases equal
      exact rest (unmixed.unique other owner _ before owns) rfl
    · exact unmixed.unsent other probe before message old
  sent message member := by
    rw [messages] at member
    rw [same]
    rcases List.mem_cons.mp member with rfl | old
    · exact ⟨unmixed.below owner number owns, id⟩
    · exact unmixed.sent message old
  apart := by
    rw [messages]
    refine ⟨?_, unmixed.apart⟩
    dsimp only
    rw [id]
    exact unmixed.far owns order

/-! ## Steps of the tasks -/

private theorem log_sent {packet : Option Packet} {sent : Bool} {request : Packet}
    (first : packet = some request) (sent_ : sent = true) :
    t.log number packet sent = ⟨number, request⟩ :: t.messages := by
  simp [Traced.log, first, sent_]

private theorem log_quiet {packet : Option Packet} {sent : Bool}
    (quiet : ¬(packet.isSome ∧ sent = true)) : t.log number packet sent = t.messages := by
  unfold Traced.log
  split
  · rename_i sent
    rw [Option.not_isSome_iff_eq_none.mp fun first => quiet ⟨first, sent⟩]
    rfl
  · rfl

section Single
variable {task : Retransmission} {outcome : ClientOutcome Retransmission}

/-- The request stays the same, and is sent for the first time once. -/
private theorem single_move (moved : task.step s choice = some outcome) :
    outcome.task.packet = task.packet ∧ firstSend outcome.task = none := by
  unfold Retransmission.step at moved
  split at moved
  · cases moved
    refine ⟨rfl, if_neg fun both => ?_⟩
    have pc := both.1
    dsimp only at pc
    split at pc <;> cases pc
  · obtain ⟨flying, -, moved⟩ := Option.bind_eq_some_iff.mp moved
    split at moved
    · cases moved
      exact ⟨rfl, if_neg nofun⟩
    · cases moved
      exact ⟨rfl, if_neg fun both => Nat.succ_ne_zero _ both.2⟩
  · cases moved
    exact ⟨rfl, if_neg nofun⟩
  · cases moved
    refine ⟨rfl, if_neg fun both => ?_⟩
    have pc := both.1
    dsimp only at pc
    split at pc <;> cases pc
  · cases moved
    exact ⟨rfl, if_neg nofun⟩
  · cases moved

/-- What the observer sees of a step of a retransmission task. -/
private theorem retransmit_parts (ran : g.step env (.retransmit i choice) = some g') :
    ∃ task outcome, g.retransmissions.get? i = some task ∧
      task.step g.server choice = some outcome ∧
      g'.retransmissions = g.retransmissions.update i outcome.task ∧ g'.blockWrites = g.blockWrites ∧
      g'.midCounter = g.midCounter := by
  cases gateway_move ran with
  | retransmit held moved called => exact ⟨_, _, held, moved, rfl, rfl, rfl⟩

private theorem kept_retransmit (labelled : Labelled t) (unmixed : Unmixed t)
    (allowed : Guarded t (.retransmit i choice))
    (ran : t.gateway.step env (.retransmit i choice) = some g') :
    Labelled (observe env t g' (.retransmit i choice)) ∧
      Unmixed (observe env t g' (.retransmit i choice)) := by
  obtain ⟨task, outcome, held, moved, tasks, blocks, counter⟩ := retransmit_parts ran
  obtain ⟨number, numbered⟩ := Tasks.exists_of_lt_count t.singles
    (labelled.singles ▸ Tasks.lt_count t.gateway.retransmissions held)
  obtain ⟨packet, once⟩ := single_move moved
  have observed : observe env t g' (.retransmit i choice) =
      { t with gateway := g', messages := t.log number (firstSend task) choice.sent } := by
    simp only [observe, held, numbered]
  have owned (other : Owner) (probe : Nat)
      (owns : Owns { t with gateway := g', messages := t.log number (firstSend task) choice.sent }
        other probe) : Owns t other probe ∧ other ≠ .single i := by
    cases other with
    | block j =>
      simp only [Owns, blocks] at owns
      exact ⟨owns, nofun⟩
    | single j =>
      obtain ⟨later, there, own, first⟩ := owns
      simp only [tasks] at there
      rw [Tasks.get?_update _ held] at there
      split at there
      · cases there
        rw [once] at first
        cases first
      · rename_i apart
        exact ⟨⟨later, there, own, first⟩, fun same => apart (Owner.single.inj same)⟩
  rw [observed]
  constructor
  · refine ⟨counter ▸ labelled.counter, ?_, blocks ▸ labelled.spans, ?_, blocks ▸ labelled.block⟩
    · rw [tasks, Tasks.count_update]
      exact labelled.singles
    · intro j later own there numbered'
      simp only [tasks] at there
      rw [Tasks.get?_update _ held] at there
      split at there
      · rename_i same
        cases there
        subst same
        rw [packet]
        exact labelled.single j task own held numbered'
      · exact labelled.single j later own there numbered'
  · by_cases sends : (firstSend task).isSome ∧ choice.sent = true
    · obtain ⟨request, first⟩ := Option.isSome_iff_exists.mp sends.1
      have same : task.packet = request := by
        unfold firstSend at first
        split at first
        · exact Option.some.inj first
        · cases first
      have owns : Owns t (.single i) number := ⟨task, held, numbered, sends.1⟩
      have id : request.messageId = idOf number := same ▸ labelled.single i task number held numbered
      refine unmixed.send owns id (allowed task held number numbered sends.1 sends.2)
        (log_sent first sends.2) rfl fun other probe owns => ⟨(owned other probe owns).1, fun equal => ?_⟩
      exact ((owned other probe owns).2 equal).elim
    · exact @Unmixed.reserve t _ (.single i) unmixed (log_quiet sends) (Nat.le_refl _)
        fun other probe owns => Or.inl (owned other probe owns).1

end Single

section Blocks
variable {after : BlockWrite} {request : Packet}

/-- The block whose first copy is sent next. -/
private theorem atBlock_of_firstBlock (first : firstBlock task = some request) :
    freshBlock task.pc = true ∧ ∃ block, atBlock task.pc = some block ∧ block.packet = request := by
  unfold firstBlock at first
  split at first
  · rename_i block channel pc
    split at first
    · rename_i copies
      rw [pc]
      exact ⟨decide_eq_true copies, block, rfl, Option.some.inj first⟩
    · cases first
  · cases first

private theorem firstBlock_next (head : task.pc = .next) : firstBlock task = none := by
  simp [firstBlock, head]

/-- A number is used when a block is built. -/
private theorem span_after (move : IdMove task after) (counts : Counts task span)
    (left : task.pc = .next → task.offset < task.payload.length → span.next < span.stop) :
    Counts after (span.after task after) ∧ (span.after task after).stop = span.stop ∧
      span.unsent task.pc ≤ (span.after task after).unsent after.pc ∧
      ((firstBlock task).isSome → span.next - 1 < (span.after task after).unsent after.pc) := by
  cases move with
  | @builds block head offset pc first id mid =>
    have fresh : freshBlock after.pc = true := by simp [pc, freshBlock, first]
    have used : span.after task after = { span with next := span.next + 1 } := by
      simp [Span.after, head, fresh]
    rw [used]
    refine ⟨⟨?_, left head offset, ?_⟩, rfl, ?_, ?_⟩
    · rw [mid, counts.mid, skipMids_one]
    · rw [pc]
      rintro _ ⟨rfl⟩
      exact ⟨Nat.succ_pos _, by rw [id, counts.mid, Nat.add_sub_cancel]⟩
    · rw [Span.unsent, Span.unsent, fresh, if_pos rfl, head]
      exact Nat.le_refl span.next
    · rw [firstBlock_next head]
      nofun
  | keeps mid fresh sent block =>
    have used : span.after task after = span := by
      unfold Span.after
      split
      · rename_i head
        refine if_neg fun now => ?_
        have before := fresh now
        rw [head] at before
        cases before
      · rfl
    rw [used]
    refine ⟨⟨mid.trans counts.mid, counts.order, fun now at_ => ?_⟩, rfl, ?_, fun first => ?_⟩
    · obtain ⟨before, at', same⟩ := block now at_
      rw [same]
      exact counts.block before at'
    · unfold Span.unsent
      split
      · rename_i before
        split <;> omega
      · rename_i before
        rw [if_neg (mt fresh before)]
    · obtain ⟨request, first'⟩ := Option.isSome_iff_exists.mp first
      obtain ⟨-, held, at_, -⟩ := atBlock_of_firstBlock first'
      have some_ := (counts.block held at_).1
      rw [Span.unsent, sent first, if_neg nofun]
      omega

private theorem blockWrite_parts (ran : g.step env (.blockWrite i choice) = some g') :
    ∃ task outcome, g.blockWrites.get? i = some task ∧
      task.step env g.server choice = some outcome ∧
      g'.blockWrites = g.blockWrites.update i outcome.task ∧ g'.retransmissions = g.retransmissions ∧
      g'.midCounter = g.midCounter := by
  cases gateway_move ran with
  | blockWrite held moved called => exact ⟨_, _, held, moved, rfl, rfl, rfl⟩

private theorem kept_blockWrite (labelled : Labelled t) (unmixed : Unmixed t)
    (allowed : Guarded t (.blockWrite i choice))
    (ran : t.gateway.step env (.blockWrite i choice) = some g') :
    Labelled (observe env t g' (.blockWrite i choice)) ∧
      Unmixed (observe env t g' (.blockWrite i choice)) := by
  obtain ⟨task, outcome, held, moved, tasks, singles, counter⟩ := blockWrite_parts ran
  obtain ⟨span, spanned⟩ := Tasks.exists_of_lt_count t.spans
    (labelled.spans ▸ Tasks.lt_count t.gateway.blockWrites held)
  have later : g'.blockWrites.get? i = some outcome.task := by
    rw [tasks, Tasks.get?_update _ held, if_pos rfl]
  have observed : observe env t g' (.blockWrite i choice) =
      { t with
        gateway := g', spans := t.spans.update i (span.after task outcome.task)
        messages := t.log (span.next - 1) (firstBlock task) choice.sent } := by
    simp only [observe, held, spanned, later]
  have counts := labelled.block i task span held spanned
  have allotted := allowed task held span spanned
  obtain ⟨counts', stop, more, sent⟩ := span_after (id_move moved) counts allotted.1
  have owned (other : Owner) (probe : Nat)
      (owns : Owns (observe env t g' (.blockWrite i choice)) other probe) : Owns t other probe ∧
        (other = .block i → (span.after task outcome.task).unsent outcome.task.pc ≤ probe) := by
    rw [observed] at owns
    cases other with
    | single j =>
      simp only [Owns, singles] at owns
      exact ⟨owns, nofun⟩
    | block j =>
      obtain ⟨now, own, there, numbered, low, high⟩ := owns
      simp only [tasks] at there
      rw [Tasks.get?_update _ held] at there
      dsimp only at numbered
      rw [Tasks.get?_update _ spanned] at numbered
      split at there
      · rename_i same
        rw [if_pos same] at numbered
        cases there
        cases numbered
        subst same
        rw [stop] at high
        exact ⟨⟨task, span, held, spanned, Nat.le_trans more low, high⟩, fun _ => low⟩
      · rename_i apart
        rw [if_neg apart] at numbered
        exact ⟨⟨now, own, there, numbered, low, high⟩, fun same => (apart (Owner.block.inj same)).elim⟩
  rw [observed] at owned ⊢
  constructor
  · refine ⟨counter ▸ labelled.counter, singles ▸ labelled.singles, ?_, singles ▸ labelled.single, ?_⟩
    · rw [tasks, Tasks.count_update, Tasks.count_update]
      exact labelled.spans
    · intro j now own there numbered
      simp only [tasks] at there
      rw [Tasks.get?_update _ held] at there
      rw [Tasks.get?_update _ spanned] at numbered
      split at there
      · rename_i same
        rw [if_pos same] at numbered
        cases there
        cases numbered
        exact counts'
      · rename_i apart
        rw [if_neg apart] at numbered
        exact labelled.block j now own there numbered
  · by_cases sends : (firstBlock task).isSome ∧ choice.sent = true
    · obtain ⟨request, first⟩ := Option.isSome_iff_exists.mp sends.1
      obtain ⟨fresh, block, at_, same⟩ := atBlock_of_firstBlock first
      obtain ⟨some_, id⟩ := counts.block block at_
      have owns : Owns t (.block i) (span.next - 1) := by
        refine ⟨task, span, held, spanned, ?_, ?_⟩
        · rw [Span.unsent, if_pos fresh]
        · have order := counts.order
          omega
      refine unmixed.send owns (same ▸ id) (allotted.2 sends.1 sends.2) (log_sent first sends.2) rfl
        fun other probe owns => ⟨(owned other probe owns).1, fun equal => ?_⟩
      have low := (owned other probe owns).2 equal
      have high := sent sends.1
      omega
    · exact @Unmixed.reserve t _ (.block i) unmixed (log_quiet sends) (Nat.le_refl _)
        fun other probe owns => Or.inl (owned other probe owns).1

end Blocks

/-! ## A step of the dispatch task -/

/-- A single request took the next id. -/
structure DispatchedSingle (env : Env) (g g' : Gateway) : Prop where
  entry : ∃ entry, g.queue.head? = some entry ∧ large entry.2.command = false
  counter : g'.midCounter = Client.skipMids g.midCounter 1
  blocks : g'.blockWrites = g.blockWrites
  tasks : ((placing env g).isSome = false ∧ g'.retransmissions = g.retransmissions) ∨
    ((placing env g).isSome = true ∧ ∃ task, g'.retransmissions = g.retransmissions.spawn task ∧
      task.packet.messageId = g.midCounter)

/-- A block-wise write was given its ids. -/
structure DispatchedBlocks (g g' : Gateway) : Prop where
  entry : ∃ entry, g.queue.head? = some entry ∧ large entry.2.command = true ∧
    g'.midCounter = Client.skipMids g.midCounter (idsFor entry.2.command)
  singles : g'.retransmissions = g.retransmissions
  tasks : ∃ task, g'.blockWrites = g.blockWrites.spawn task ∧ task.mid = g.midCounter ∧ task.pc = .next

private theorem placing_large {entry : SocketAddr × PendingOperation}
    (front : g.queue.head? = some entry) (long : large entry.2.command = true) :
    placing env g = none := by
  simp [placing, front, long]

private theorem messageId_buildRequest (command : LwM2mCommand) (token : Token) (mid : UInt16) :
    (Client.buildRequest command token mid).messageId = mid := by
  cases command <;> rfl

private theorem dispatched (ran : g.step env .dispatch = some g') :
    DispatchedSingle env g g' ∨ DispatchedBlocks g g' := by
  cases dispatch_move ran with
  | block front command long =>
    refine Or.inr ⟨⟨_, by rw [front]; rfl, ?_, ?_⟩, rfl, _, rfl, rfl, rfl⟩
    · simp [large, command, long]
    · simp [idsFor, command, long]
  | unsendable front small failed =>
    refine Or.inl ⟨⟨_, by rw [front]; rfl, large_eq_false small⟩, rfl, rfl, Or.inl ⟨?_, rfl⟩⟩
    simp [placing, front, large_eq_false small, failed, Except.toBool]
  | single front small encoded =>
    refine Or.inl ⟨⟨_, by rw [front]; rfl, large_eq_false small⟩, rfl, rfl,
      Or.inr ⟨?_, _, rfl, messageId_buildRequest _ _ _⟩⟩
    simp [placing, front, large_eq_false small, encoded, Except.toBool]

private theorem idsFor_small {command : LwM2mCommand} (small : large command = false) :
    idsFor command = 1 := by
  cases command with
  | write path value format => exact if_neg (of_decide_eq_false small)
  | _ => rfl

private theorem idsFor_pos (command : LwM2mCommand) : 0 < idsFor command := by
  cases command with
  | write path value format =>
    simp only [idsFor]
    split
    · rename_i long
      refine Nat.div_pos ?_ ?_
      · omega
      · decide
    · exact Nat.one_pos
  | _ => exact Nat.one_pos

private theorem kept_single (labelled : Labelled t) (unmixed : Unmixed t)
    (taken : DispatchedSingle env t.gateway g') :
    Labelled (observe env t g' .dispatch) ∧ Unmixed (observe env t g' .dispatch) := by
  obtain ⟨entry, front, small⟩ := taken.entry
  have observed : observe env t g' .dispatch =
      { t with
        gateway := g', handedOut := t.handedOut + 1
        singles := if (placing env t.gateway).isSome then t.singles.spawn t.handedOut else t.singles } := by
    simp [observe, front, small, idsFor_small small]
  have counter : g'.midCounter = idOf (t.handedOut + 1) := by
    rw [taken.counter, labelled.counter, skipMids_one]
  have blocks := taken.blocks
  rw [observed]
  rcases taken.tasks with ⟨unplaced, tasks⟩ | ⟨placed, task, tasks, id⟩
  · simp only [unplaced, Bool.false_eq_true, if_false]
    refine ⟨⟨counter, tasks ▸ labelled.singles, blocks ▸ labelled.spans, tasks ▸ labelled.single,
      blocks ▸ labelled.block⟩, ?_⟩
    refine @Unmixed.reserve t _ (.single 0) unmixed rfl (Nat.le_succ _) fun other probe owns => Or.inl ?_
    cases other with
    | single j =>
      simp only [Owns, tasks] at owns
      exact owns
    | block j =>
      simp only [Owns, blocks] at owns
      exact owns
  · simp only [placed, if_true]
    constructor
    · refine ⟨counter, ?_, blocks ▸ labelled.spans, ?_, blocks ▸ labelled.block⟩
      · rw [tasks, Tasks.count_spawn, Tasks.count_spawn, labelled.singles]
      · intro j now own there numbered
        simp only [tasks] at there
        rw [Tasks.get?_spawn, ← labelled.singles] at there
        rw [Tasks.get?_spawn] at numbered
        split at there
        · rename_i same
          rw [if_pos same] at numbered
          cases there
          cases numbered
          rw [id, labelled.counter]
        · rename_i apart
          rw [if_neg apart] at numbered
          exact labelled.single j now own there numbered
    · refine @Unmixed.reserve t _ (.single t.singles.count) unmixed rfl (Nat.le_succ _)
        fun other probe owns => ?_
      cases other with
      | block j =>
        simp only [Owns, blocks] at owns
        exact Or.inl owns
      | single j =>
        obtain ⟨now, there, numbered, first⟩ := owns
        simp only [tasks] at there
        rw [Tasks.get?_spawn, ← labelled.singles] at there
        dsimp only at numbered
        rw [Tasks.get?_spawn] at numbered
        split at there
        · rename_i same
          rw [if_pos same] at numbered
          cases numbered
          exact Or.inr ⟨by rw [same], Nat.le_refl _, Nat.lt_succ_self _⟩
        · rename_i apart
          rw [if_neg apart] at numbered
          exact Or.inl ⟨now, there, numbered, first⟩

private theorem kept_blocks (labelled : Labelled t) (unmixed : Unmixed t)
    (within : WithinRound t.gateway) (taken : DispatchedBlocks t.gateway g') :
    Labelled (observe env t g' .dispatch) ∧ Unmixed (observe env t g' .dispatch) := by
  obtain ⟨entry, front, long, counter⟩ := taken.entry
  obtain ⟨task, tasks, mid, pc⟩ := taken.tasks
  have singles := taken.singles
  have observed : observe env t g' .dispatch =
      { t with
        gateway := g', handedOut := t.handedOut + idsFor entry.2.command
        spans := t.spans.spawn ⟨t.handedOut, t.handedOut + idsFor entry.2.command⟩ } := by
    simp [observe, front, long, placing_large front long]
  have fits := within entry front long
  rw [labelled.counter] at fits
  have counter : g'.midCounter = idOf (t.handedOut + idsFor entry.2.command) := by
    rw [counter, labelled.counter, skipMids_idOf (idsFor_pos _) fits]
  rw [observed]
  constructor
  · refine ⟨counter, singles ▸ labelled.singles, ?_, singles ▸ labelled.single, ?_⟩
    · rw [tasks, Tasks.count_spawn, Tasks.count_spawn, labelled.spans]
    · intro j now own there numbered
      simp only [tasks] at there
      rw [Tasks.get?_spawn, ← labelled.spans] at there
      rw [Tasks.get?_spawn] at numbered
      split at there
      · rename_i same
        rw [if_pos same] at numbered
        cases there
        cases numbered
        refine ⟨mid.trans labelled.counter, Nat.le_add_right _ _, fun block at_ => ?_⟩
        rw [pc] at at_
        cases at_
      · rename_i apart
        rw [if_neg apart] at numbered
        exact labelled.block j now own there numbered
  · refine @Unmixed.reserve t _ (.block t.spans.count) unmixed rfl (Nat.le_add_right _ _)
      fun other probe owns => ?_
    cases other with
    | single j =>
      simp only [Owns, singles] at owns
      exact Or.inl owns
    | block j =>
      obtain ⟨now, own, there, numbered, low, high⟩ := owns
      simp only [tasks] at there
      rw [Tasks.get?_spawn, ← labelled.spans] at there
      dsimp only at numbered
      rw [Tasks.get?_spawn] at numbered
      split at there
      · rename_i same
        rw [if_pos same] at numbered
        cases there
        cases numbered
        rw [Span.unsent, pc] at low
        exact Or.inr ⟨by rw [same], low, high⟩
      · rename_i apart
        rw [if_neg apart] at numbered
        exact Or.inl ⟨now, own, there, numbered, low, high⟩

/-! ## Whole runs -/

private theorem afterRecv_client (g : Gateway) : g.afterRecv.midCounter = g.midCounter ∧
    g.afterRecv.retransmissions = g.retransmissions ∧ g.afterRecv.blockWrites = g.blockWrites := by
  unfold Gateway.afterRecv
  split
  · exact ⟨rfl, rfl, rfl⟩
  · exact ⟨rfl, rfl, rfl⟩
  · split <;> exact ⟨rfl, rfl, rfl⟩
  · exact ⟨rfl, rfl, rfl⟩

/-- The other steps do not touch the tasks of `client.rs`. -/
private theorem client_kept (ran : g.step env act = some g') (dispatch : act ≠ .dispatch)
    (retransmit : ∀ i choice, act ≠ .retransmit i choice)
    (blockWrite : ∀ i choice, act ≠ .blockWrite i choice) :
    g'.midCounter = g.midCounter ∧ g'.retransmissions = g.retransmissions ∧
      g'.blockWrites = g.blockWrites := by
  cases gateway_move ran with
  | recv => exact afterRecv_client g
  | block | unsendable | single => exact (dispatch rfl).elim
  | retransmit => exact (retransmit _ _ rfl).elim
  | blockWrite => exact (blockWrite _ _ rfl).elim
  | _ => exact ⟨rfl, rfl, rfl⟩

private theorem kept_step (labelled : Labelled t) (unmixed : Unmixed t) (allowed : Guarded t act)
    (ran : (machine env).step t act = some t') : Labelled t' ∧ Unmixed t' := by
  obtain ⟨g', stepped, rfl⟩ := Option.map_eq_some_iff.mp ran
  have quiet (dispatch : act ≠ .dispatch) (retransmit : ∀ i choice, act ≠ .retransmit i choice)
      (blockWrite : ∀ i choice, act ≠ .blockWrite i choice)
      (same : observe env t g' act = { t with gateway := g' }) :
      Labelled (observe env t g' act) ∧ Unmixed (observe env t g' act) := by
    obtain ⟨counter, singles, blocks⟩ := client_kept stepped dispatch retransmit blockWrite
    rw [same]
    refine ⟨⟨counter ▸ labelled.counter, singles ▸ labelled.singles, blocks ▸ labelled.spans,
      singles ▸ labelled.single, blocks ▸ labelled.block⟩, ?_⟩
    refine @Unmixed.reserve t _ (.single 0) unmixed rfl (Nat.le_refl _) fun other probe owns => Or.inl ?_
    cases other with
    | single j =>
      simp only [Owns, singles] at owns
      exact owns
    | block j =>
      simp only [Owns, blocks] at owns
      exact owns
  cases act with
  | dispatch =>
    rcases dispatched stepped with taken | taken
    · exact kept_single labelled unmixed taken
    · exact kept_blocks labelled unmixed allowed taken
  | retransmit i choice => exact kept_retransmit labelled unmixed allowed stepped
  | blockWrite i choice => exact kept_blockWrite labelled unmixed allowed stepped
  | _ => exact quiet nofun nofun nofun rfl

private theorem kept_start (initial : (machine env).start t) : Labelled t ∧ Unmixed t := by
  obtain ⟨⟨seed, serverUri, included, now, snapshots, clock, trafficClass, -, -, -, gateway⟩, empty⟩ :=
    initial
  have retransmissions : t.gateway.retransmissions = {} := by rw [gateway]
  have blockWrites : t.gateway.blockWrites = {} := by rw [gateway]
  have counter : t.gateway.midCounter = 1 := by rw [gateway]
  have handedOut : t.handedOut = 0 := congrArg Traced.handedOut empty
  have singles : t.singles = {} := congrArg Traced.singles empty
  have spans : t.spans = {} := congrArg Traced.spans empty
  have messages : t.messages = [] := congrArg Traced.messages empty
  have none_ (owner : Owner) (number : Nat) : ¬Owns t owner number := by
    cases owner with
    | single j =>
      rintro ⟨task, held, -⟩
      rw [retransmissions, Tasks.get?_empty] at held
      cases held
    | block j =>
      rintro ⟨task, span, held, -⟩
      rw [blockWrites, Tasks.get?_empty] at held
      cases held
  constructor
  · refine ⟨?_, ?_, ?_, fun i task number held => ?_, fun i task span held => ?_⟩
    · rw [counter, handedOut]
      rfl
    · rw [singles, retransmissions]
      rfl
    · rw [spans, blockWrites]
      rfl
    · rw [retransmissions, Tasks.get?_empty] at held
      cases held
    · rw [blockWrites, Tasks.get?_empty] at held
      cases held
  · refine ⟨fun owner number owns => (none_ owner number owns).elim,
      fun owner _ number owns => (none_ owner number owns).elim,
      fun owner number owns => (none_ owner number owns).elim, ?_, ?_⟩
    · rw [messages]
      exact fun _ member => absurd member List.not_mem_nil
    · rw [messages]
      trivial

/-- **In every run that keeps to the ids set aside and uses them in order, the
messages of a stretch shorter than a round have different ids.** -/
theorem ids_distinct (reached : (machine env).Reaches Guarded t) : Distinct t := by
  obtain ⟨-, unmixed⟩ : Labelled t ∧ Unmixed t :=
    reached.invariant (fun t => Labelled t ∧ Unmixed t) (fun _ initial => kept_start initial)
      fun _ _ _ _ kept allowed ran => kept_step kept.1 kept.2 allowed ran
  intro stretch part short
  constructor
  · refine unmixed.apart.nodup_stretch part ?_
    simp only [round] at short ⊢
    omega
  · intro zero
    obtain ⟨message, member, none_⟩ := List.mem_map.mp zero
    have id := (unmixed.sent message (part.subset member)).2
    exact idOf_ne_zero message.number (id.symm.trans none_)

/-! ## A write of two blocks, and a read -/

/-- The write and the read are handed to the dispatch task, which takes the
write. -/
def requested : List GatewayAction :=
  [.request Peer.addr (.write pingPath (List.replicate 529 7) 42) false,
    .request Peer.addr (.read pingPath) false, .dispatch]

/-- The write sends its next block. -/
def sendBlock : List GatewayAction :=
  [.blockWrite 0 {}, .blockWrite 0 {}, .setClass (.blockWrite 0) true, .blockWrite 0 {}]

/-- The device acknowledges a block and asks for blocks of a size. -/
def continueWith (szx : UInt8) : List GatewayAction :=
  Peer.relay { type := .acknowledgement, code := .response .continue, messageId := 1
               token := (tokenOfId 1).toList, block1 := some [szx] } Peer.addr 4 ++ [.blockWrite 0 {}]

/-- The read is sent. -/
def readSent : List GatewayAction :=
  [.dispatch, .setClass (.retransmission 0) true, .retransmit 0 {}]

/-- The ids of the messages, newest first. -/
def sentIds (ids : List UInt16) (t : Traced) : Bool :=
  decide (t.messages.map (·.packet.messageId) = ids)

private theorem start_traced : (machine Peer.env).start { gateway := Peer.gateway } :=
  ⟨Peer.start_gateway, rfl⟩

/-- With blocks of the initial size the two ids set aside are enough. -/
theorem twoBlocks_distinct : ∃ last,
    (machine Peer.env).exec Guarded { gateway := Peer.gateway }
      (requested ++ sendBlock ++ continueWith 5 ++ sendBlock ++ readSent) = some last ∧
    last.messages.map (·.packet.messageId) = [3, 2, 1] ∧ Distinct last := by
  obtain ⟨last, ran, reached, seen⟩ := Machine.exec_reaches (machine Peer.env) Guarded
    { gateway := Peer.gateway } (requested ++ sendBlock ++ continueWith 5 ++ sendBlock ++ readSent)
    (sentIds [3, 2, 1]) start_traced (by decide +kernel)
  exact ⟨last, ran, of_decide_eq_true seen, ids_distinct reached⟩

/-- The device asks for the smallest blocks after the first one: the third block
and the read have the same id. -/
theorem smallBlocks_repeat : ∃ last, (machine Peer.env).Reaches Machine.always last ∧
    last.messages.map (·.packet.messageId) = [3, 3, 2, 1] ∧ ¬Distinct last := by
  obtain ⟨last, -, reached, seen⟩ := Machine.exec_reaches (machine Peer.env) Machine.always
    { gateway := Peer.gateway }
    (requested ++ sendBlock ++ continueWith 0 ++ sendBlock ++ continueWith 0 ++ sendBlock ++ readSent)
    (sentIds [3, 3, 2, 1]) start_traced (by decide +kernel)
  have ids : last.messages.map (·.packet.messageId) = [3, 3, 2, 1] := of_decide_eq_true seen
  refine ⟨last, reached, ids, fun distinct => ?_⟩
  have few : last.messages.length < round := by
    have count := congrArg List.length ids
    rw [List.length_map] at count
    rw [count]
    decide
  have nodup := (distinct last.messages (List.infix_refl _) few).1
  rw [ids] at nodup
  exact absurd nodup (by decide)

end Lwm2mServer.MessageIds
