import Mathlib.Data.List.Chain
import Lwm2mServer.BlockTransfer

/-! The blocks that one block-wise write sends. The number of a block is the
offset divided by the block size, and the device may ask for smaller blocks
after any of them: the numbers are right because the offset stays a multiple of
every size there is from then on. -/
namespace Lwm2mServer.BlockStream
open Library BlockTransfer

/-- A block as `dispatch_block_write` hands it to the socket, with the Block1
option of the datagram. -/
structure SentBlock where
  num : Nat
  more : Bool
  szx : UInt8
  chunk : Bytes
  block1 : Option Bytes

namespace SentBlock

def start (block : SentBlock) : Nat := block.num * Client.blockSize block.szx

def stop (block : SentBlock) (total : Nat) : Nat :=
  min ((block.num + 1) * Client.blockSize block.szx) total

/-- The block is the part of the payload that its number and size name. -/
structure Exact (payload : Bytes) (block : SentBlock) : Prop where
  inside : block.start < payload.length
  chunk : block.chunk = part payload block.start (block.stop payload.length)
  more : block.more = decide (block.stop payload.length < payload.length)
  block1 : block.block1 = some (Client.encodeBlock1 block.num block.more block.szx)

end SentBlock

/-- A transfer and what it handed to the socket, oldest first: everything, and
the first copy of each block. -/
structure Stream where
  task : BlockWrite
  sent : List SentBlock := []
  fresh : List SentBlock := []

/-- A step of the task: the state the rest of the server is in at that moment,
with whatever answer it holds for the task, and what the environment decides. -/
structure Turn where
  server : Server
  choice : Choice := {}

/-- The block that stands at a call of `send_to`. -/
def sentBlock (task : BlockWrite) (block : Block) : SentBlock where
  num := task.offset / Client.blockSize task.szx
  more := block.more
  szx := task.szx
  chunk := block.packet.payload
  block1 := block.packet.block1

namespace Stream

/-- What the task sends in its next step, and whether it is a first copy. -/
def sends (task : BlockWrite) : Option (SentBlock × Bool) :=
  match task.pc with
  | .send block _ => some (sentBlock task block, decide (block.retransmits = 0))
  | _ => none

def step (env : Env) (t : Stream) (turn : Turn) : Option Stream := do
  let outcome ← t.task.step env turn.server turn.choice
  let sends := (sends t.task).toList
  return {
    task := outcome.task
    sent := t.sent ++ sends.map Prod.fst
    fresh := t.fresh ++ (sends.filter Prod.snd).map Prod.fst }

/-- `dispatch_op` spawns the transfer of a payload that is too long for one
request. -/
def machine (env : Env) (payload : Bytes) : Machine Stream Turn where
  start t := Client.blockThreshold < payload.length ∧ ∃ addr op path contentFormat mid,
    t = { task := Link.spawned addr op path payload contentFormat mid }
  step := step env

end Stream

/-- Blocks, oldest first, that lie one behind the other from the beginning of
the payload up to an offset. -/
inductive Tiles (total : Nat) : List SentBlock → Nat → Prop where
  | nil : Tiles total [] 0
  | snoc (earlier : Tiles total blocks block.start) : Tiles total (blocks ++ [block]) (block.stop total)

/-- What is asked of a stream of blocks: every block is exact, sizes do not
grow, the first copies follow each other without gap or overlap, and together
they are a prefix of the payload, which is all of it once a block that announces
no more was sent. -/
structure Exactly (payload : Bytes) (t : Stream) : Prop where
  exact : ∀ block ∈ t.sent, block.Exact payload
  shrinking : t.sent.Pairwise fun earlier later => later.szx ≤ earlier.szx
  copies : ∀ block, block ∈ t.sent ↔ block ∈ t.fresh
  first : ∀ block ∈ t.fresh.head?, block.start = 0
  contiguous : t.fresh.IsChain fun earlier later => later.start = earlier.stop payload.length
  isPrefix : t.fresh.flatMap SentBlock.chunk <+: payload
  whole : (∃ block ∈ t.sent, block.more = false) → t.fresh.flatMap SentBlock.chunk = payload

/-- What a device reads from a Block1 option. -/
def decodeBlock1 (bytes : Bytes) : Nat × Bool × UInt8 :=
  let value := bytes.foldl (fun n byte => n * 256 + byte.toNat) 0
  (value / 16, decide (value / 8 % 2 = 1), UInt8.ofNat (value % 8))

/-- The block the task is at is the part of the payload at its offset. -/
structure AtBlock (task : BlockWrite) (block : Block) : Prop where
  inside : task.offset < task.payload.length
  stop : block.stop = min (task.offset + Client.blockSize task.szx) task.payload.length
  more : block.more = decide (block.stop < task.payload.length)
  chunk : block.packet.payload = part task.payload task.offset block.stop
  block1 : block.packet.block1 =
    some (Client.encodeBlock1 (task.offset / Client.blockSize task.szx) block.more task.szx)

/-- What is at the task's offset was not handed to the socket yet. -/
def unsent : BlockPc → Bool
  | .next => true
  | .arm block | .send block _ => decide (block.retransmits = 0)
  | _ => false

/-- All that a step of the task can do. -/
inductive Move (task after : BlockWrite) : Prop where
  /-- It ends, or is on its way to the end. -/
  | leaves (silent : Stream.sends task = none) (gone : atBlock after.pc = none)
      (spent : unsent after.pc = false) (szx : after.szx = task.szx)
      (offset : after.offset = task.offset)
  | takes {block : Block} (head : task.pc = .next) (pc : after.pc = .arm block)
      (first : block.retransmits = 0) (at_ : AtBlock task block)
      (offset : after.offset = task.offset) (szx : after.szx = task.szx)
  | stays {block block' : Block} (silent : Stream.sends task = none)
      (before : atBlock task.pc = some block) (now : atBlock after.pc = some block')
      (same : block'.packet = block.packet ∧ block'.stop = block.stop ∧ block'.more = block.more)
      (unsent_ : unsent after.pc = unsent task.pc)
      (offset : after.offset = task.offset) (szx : after.szx = task.szx)
  | sends {block : Block} {channel : Nat} (pc : task.pc = .send block channel)
      (now : atBlock after.pc = some block) (handed : unsent after.pc = false)
      (offset : after.offset = task.offset) (szx : after.szx = task.szx)
  | advances {block : Block} {channel : Nat} (pc : task.pc = .wait block channel)
      (more : block.more = true) (offset : after.offset = block.stop) (szx : after.szx ≤ task.szx)
      (head : after.pc = .next)

variable {env : Env} {payload : Bytes} {t t' : Stream} {turn : Turn}

/-! ## Blocks one behind the other -/

/-- Where the last block ends is where the blocks end. -/
private theorem tiles_upTo {total upTo : Nat} {blocks : List SentBlock}
    (tiles : Tiles total blocks upTo) :
    upTo = (blocks.getLast?.map fun last => last.stop total).getD 0 := by
  cases tiles with
  | nil => rfl
  | snoc _ => simp

private theorem tiles_head {total upTo : Nat} {blocks : List SentBlock}
    (tiles : Tiles total blocks upTo) : ∀ block ∈ blocks.head?, block.start = 0 := by
  induction tiles with
  | nil => exact fun _ none_ => by cases none_
  | @snoc blocks block earlier ih =>
    cases blocks with
    | nil =>
      rintro _ ⟨rfl⟩
      exact tiles_upTo earlier
    | cons head rest => exact ih

private theorem tiles_isChain {total upTo : Nat} {blocks : List SentBlock}
    (tiles : Tiles total blocks upTo) :
    blocks.IsChain fun earlier later => later.start = earlier.stop total := by
  induction tiles with
  | nil => exact List.isChain_nil
  | @snoc blocks block earlier ih =>
    refine List.isChain_append.mpr ⟨ih, List.isChain_singleton _, ?_⟩
    intro last isLast head isHead
    cases isHead
    have ends := tiles_upTo earlier
    rw [Option.mem_def.mp isLast] at ends
    exact ends

/-- The part up to an offset and the part behind it. -/
private theorem take_append_part {start stop : Nat} (order : start ≤ stop) :
    payload.take start ++ part payload start stop = payload.take stop := by
  rw [part]
  calc
    payload.take start ++ (payload.drop start).take (stop - start)
        = payload.take (start + (stop - start)) := (List.take_add ..).symm
    _ = payload.take stop := by rw [Nat.add_sub_cancel' order]

private theorem tiles_flatMap {upTo : Nat} {blocks : List SentBlock}
    (tiles : Tiles payload.length blocks upTo) (exact_ : ∀ block ∈ blocks, block.Exact payload) :
    blocks.flatMap SentBlock.chunk = payload.take upTo := by
  induction tiles with
  | nil => rfl
  | @snoc blocks block earlier ih =>
    have last := exact_ block (List.mem_append_right _ (List.mem_singleton_self _))
    have order : block.start ≤ block.stop payload.length := by
      refine Nat.le_min.mpr ⟨?_, Nat.le_of_lt last.inside⟩
      exact Nat.mul_le_mul_right _ (Nat.le_succ _)
    rw [List.flatMap_append, ih fun b member => exact_ b (List.mem_append_left _ member),
      List.flatMap_singleton, last.chunk, take_append_part order]

/-! ## One step of the task -/

section
variable {task : BlockWrite} {s : Server} {choice : Choice} {outcome : ClientOutcome BlockWrite}

private theorem received_move {block : Block} {channel : Nat} {packet : Packet}
    (pc : task.pc = .wait block channel) :
    (task.received block packet).task.payload = task.payload ∧
      Move task (task.received block packet).task := by
  have silent : Stream.sends task = none := by simp [Stream.sends, pc]
  have ends (result : LwM2mResult) : (task.answered result .ended).task.payload = task.payload ∧
      Move task (task.answered result .ended).task := ⟨rfl, .leaves silent rfl rfl rfl rfl⟩
  unfold BlockWrite.received
  split
  · split
    · exact ends _
    · rename_i more
      refine ⟨rfl, .advances pc (by simpa using more) rfl ?_ rfl⟩
      dsimp only
      split
      · rename_i smaller
        exact UInt8.le_of_lt smaller
      · exact UInt8.le_refl _
  · exact ends _
  · exact ends _

/-- The device asks for a size; the task takes it only if it is smaller. -/
theorem step_move (moved : task.step env s choice = some outcome) :
    outcome.task.payload = task.payload ∧ Move task outcome.task := by
  unfold BlockWrite.step at moved
  split at moved
  · rename_i pc
    have silent : Stream.sends task = none := by simp [Stream.sends, pc]
    split at moved
    · rename_i inside
      dsimp only at moved
      split at moved
      · cases moved
        exact ⟨rfl, .leaves silent rfl rfl rfl rfl⟩
      · cases moved
        exact ⟨rfl, .takes pc rfl rfl ⟨inside, rfl, rfl, rfl, rfl⟩ rfl rfl⟩
    · cases moved
      exact ⟨rfl, .leaves silent rfl rfl rfl rfl⟩
  · rename_i block pc
    cases moved
    refine ⟨rfl, .stays (by simp [Stream.sends, pc]) (by rw [pc]; rfl) rfl ⟨rfl, rfl, rfl⟩ ?_ rfl rfl⟩
    rw [pc]
    rfl
  · rename_i block channel pc
    cases moved
    refine ⟨rfl, .sends pc ?_ ?_ rfl rfl⟩ <;>
      (dsimp only
       split <;> rfl)
  · rename_i block channel pc
    have silent : Stream.sends task = none := by simp [Stream.sends, pc]
    split at moved
    · cases moved
      exact received_move pc
    · cases moved
      exact ⟨rfl, .leaves silent rfl rfl rfl rfl⟩
    · split at moved
      · cases moved
        refine ⟨rfl, .stays silent (by rw [pc]; rfl) rfl ⟨rfl, rfl, rfl⟩ ?_ rfl rfl⟩
        rw [pc]
        rfl
      · cases moved
  · rename_i block timedOut pc
    have silent : Stream.sends task = none := by simp [Stream.sends, pc]
    dsimp only at moved
    split at moved
    · cases moved
      have here : atBlock task.pc = some block := by rw [pc]; rfl
      refine ⟨rfl, .stays silent here rfl ⟨rfl, rfl, rfl⟩ ?_ rfl rfl⟩
      rw [pc]
      simp [unsent]
    · cases moved
      exact ⟨rfl, .leaves silent rfl rfl rfl rfl⟩
  · rename_i pc
    cases moved
    refine ⟨rfl, .leaves (by simp [Stream.sends, pc]) ?_ ?_ rfl rfl⟩ <;>
      (dsimp only
       split <;> rfl)
  · rename_i pc
    cases moved
    exact ⟨rfl, .leaves (by simp [Stream.sends, pc]) rfl rfl rfl rfl⟩
  · cases moved

end

/-! ## The whole transfer -/

/-- The option says what the block is, up to the `2 ^ 20` blocks it has room for. -/
theorem decodeBlock1_encodeBlock1 {num : Nat} (more : Bool) {szx : UInt8} (counted : num < 2 ^ 20)
    (small : szx < 8) : decodeBlock1 (Client.encodeBlock1 num more szx) = (num, more, szx) := by
  have size : szx.toNat < 8 := UInt8.lt_iff_toNat_lt.mp small
  have flag : more.toNat ≤ 1 := Bool.toNat_le more
  have value : num <<< 4 ||| more.toNat <<< 3 ||| szx.toNat = num * 16 + more.toNat * 8 + szx.toNat := by
    have low : more.toNat <<< 3 ||| szx.toNat = more.toNat * 8 + szx.toNat := by
      rw [← Nat.shiftLeft_add_eq_or_of_lt (i := 3) size, Nat.shiftLeft_eq]
    have nibble : more.toNat * 8 + szx.toNat < 2 ^ 4 := by omega
    rw [Nat.or_assoc, low, ← Nat.shiftLeft_add_eq_or_of_lt nibble, Nat.shiftLeft_eq]
    omega
  have parts {v : Nat} (same : v = num * 16 + more.toNat * 8 + szx.toNat) :
      (v / 16, decide (v / 8 % 2 = 1), UInt8.ofNat (v % 8)) = (num, more, szx) := by
    have quotient : v / 16 = num := by omega
    have bit : v / 8 % 2 = more.toNat := by omega
    have rest : v % 8 = szx.toNat := by omega
    rw [quotient, bit, rest, UInt8.ofNat_toNat]
    cases more <;> rfl
  unfold Client.encodeBlock1 decodeBlock1
  simp only [value, Nat.shiftRight_eq_div_pow]
  split
  · simp only [List.foldl_cons, List.foldl_nil, UInt8.toNat_ofNat']
    exact parts (by omega)
  · split
    · simp only [List.foldl_cons, List.foldl_nil, UInt8.toNat_ofNat']
      exact parts (by omega)
    · simp only [List.foldl_cons, List.foldl_nil, UInt8.toNat_ofNat']
      exact parts (by omega)

/-- How far the first copies reach: to the task's offset, or behind its block
once that was sent. -/
structure UpTo (payload : Bytes) (t : Stream) (upTo : Nat) : Prop where
  tiles : Tiles payload.length t.fresh upTo
  before : unsent t.task.pc = true → upTo = t.task.offset
  behind : ∀ block, atBlock t.task.pc = some block → unsent t.task.pc = false → upTo = block.stop
  whole : ∀ block ∈ t.sent, block.more = false → upTo = payload.length

structure Sound (payload : Bytes) (t : Stream) : Prop where
  carried : t.task.payload = payload
  aligned : Client.blockSize t.task.szx ∣ t.task.offset
  block : ∀ block, atBlock t.task.pc = some block → AtBlock t.task block
  exact : ∀ block ∈ t.sent, block.Exact payload
  larger : ∀ block ∈ t.sent, t.task.szx ≤ block.szx
  shrinking : t.sent.Pairwise fun earlier later => later.szx ≤ earlier.szx
  copies : ∀ block, block ∈ t.sent ↔ block ∈ t.fresh
  current : ∀ block, atBlock t.task.pc = some block → unsent t.task.pc = false →
    sentBlock t.task block ∈ t.fresh
  upTo : ∃ upTo, UpTo payload t upTo

/-- A smaller block size divides a larger one. -/
theorem blockSize_dvd {szx szx' : UInt8} (smaller : szx ≤ szx') :
    Client.blockSize szx ∣ Client.blockSize szx' :=
  Nat.pow_dvd_pow 2 (Nat.add_le_add_right (UInt8.le_iff_toNat_le.mp smaller) 4)

private theorem sentBlock_start {task : BlockWrite} {block : Block}
    (aligned : Client.blockSize task.szx ∣ task.offset) : (sentBlock task block).start = task.offset :=
  Nat.div_mul_cancel aligned

private theorem sentBlock_stop {task : BlockWrite} {block : Block} (at_ : AtBlock task block)
    (aligned : Client.blockSize task.szx ∣ task.offset) :
    (sentBlock task block).stop task.payload.length = block.stop := by
  have start : task.offset / Client.blockSize task.szx * Client.blockSize task.szx = task.offset :=
    Nat.div_mul_cancel aligned
  rw [at_.stop, SentBlock.stop]
  simp only [sentBlock]
  rw [Nat.add_mul, Nat.one_mul, start]

private theorem sentBlock_exact {task : BlockWrite} {block : Block} (at_ : AtBlock task block)
    (aligned : Client.blockSize task.szx ∣ task.offset) :
    (sentBlock task block).Exact task.payload where
  inside := by
    rw [sentBlock_start aligned]
    exact at_.inside
  chunk := by
    rw [sentBlock_start aligned, sentBlock_stop at_ aligned]
    exact at_.chunk
  more := by
    rw [sentBlock_stop at_ aligned]
    exact at_.more
  block1 := at_.block1

/-- Nothing was sent, and the task is at the same part of the payload or done. -/
private theorem sound_silent {task : BlockWrite} (sound : Sound payload t)
    (carried : task.payload = t.task.payload) (szx : task.szx = t.task.szx)
    (aligned : Client.blockSize task.szx ∣ task.offset)
    (block : ∀ block, atBlock task.pc = some block → AtBlock task block)
    (current : ∀ block, atBlock task.pc = some block → unsent task.pc = false →
      sentBlock task block ∈ t.fresh)
    (upTo : ∃ upTo, UpTo payload { t with task } upTo) : Sound payload { t with task } where
  carried := carried.trans sound.carried
  aligned := aligned
  block := block
  exact := sound.exact
  larger b member := szx ▸ sound.larger b member
  shrinking := sound.shrinking
  copies := sound.copies
  current := current
  upTo := upTo

private theorem atBlock_after {task after : BlockWrite} {block block' : Block} (at_ : AtBlock task block)
    (carried : after.payload = task.payload) (offset : after.offset = task.offset)
    (szx : after.szx = task.szx)
    (same : block'.packet = block.packet ∧ block'.stop = block.stop ∧ block'.more = block.more) :
    AtBlock after block' := by
  obtain ⟨packet, stop, more⟩ := same
  constructor
  · rw [offset, carried]
    exact at_.inside
  · rw [stop, offset, szx, carried]
    exact at_.stop
  · rw [more, stop, carried]
    exact at_.more
  · rw [packet, carried, offset, stop]
    exact at_.chunk
  · rw [packet, more, offset, szx]
    exact at_.block1

/-- The task stays at its block. -/
private theorem sound_stays {task : BlockWrite} {block block' : Block} (sound : Sound payload t)
    (carried : task.payload = t.task.payload) (before : atBlock t.task.pc = some block)
    (now : atBlock task.pc = some block')
    (same : block'.packet = block.packet ∧ block'.stop = block.stop ∧ block'.more = block.more)
    (kept : unsent task.pc = unsent t.task.pc) (offset : task.offset = t.task.offset)
    (szx : task.szx = t.task.szx) : Sound payload { t with task } := by
  have moved := atBlock_after (sound.block block before) carried offset szx same
  obtain ⟨packet, stop, more⟩ := same
  have sent : sentBlock task block' = sentBlock t.task block := by
    simp only [sentBlock, offset, szx, packet, more]
  refine sound_silent sound carried szx (by rw [szx, offset]; exact sound.aligned) ?_ ?_ ?_
  · rintro other here
    rw [now] at here
    cases here
    exact moved
  · rintro other here handed
    rw [now] at here
    cases here
    rw [sent]
    exact sound.current block before (kept ▸ handed)
  · obtain ⟨upTo, reach⟩ := sound.upTo
    refine ⟨upTo, reach.tiles, fun first => ?_, fun other here handed => ?_, reach.whole⟩
    · exact (reach.before (kept ▸ first)).trans offset.symm
    · dsimp only at here
      rw [now] at here
      cases here
      exact (reach.behind block before (kept ▸ handed)).trans stop.symm

/-- The task hands its block to the socket, for the first time or again. -/
private theorem sound_sends {task : BlockWrite} {block : Block} {channel : Nat}
    (sound : Sound payload t) (carried : task.payload = t.task.payload)
    (pc : t.task.pc = .send block channel) (now : atBlock task.pc = some block)
    (handed : unsent task.pc = false) (offset : task.offset = t.task.offset)
    (szx : task.szx = t.task.szx) :
    Sound payload {
      task
      sent := t.sent ++ [sentBlock t.task block]
      fresh := t.fresh ++ if block.retransmits = 0 then [sentBlock t.task block] else [] } := by
  have before : atBlock t.task.pc = some block := by rw [pc]; rfl
  have at_ := sound.block block before
  have exact_ := sentBlock_exact at_ sound.aligned
  have start : (sentBlock t.task block).start = t.task.offset := sentBlock_start sound.aligned
  have stop := sentBlock_stop at_ sound.aligned
  rw [sound.carried] at exact_ stop
  have sent : sentBlock task block = sentBlock t.task block := by
    simp only [sentBlock, offset, szx]
  have unsent_iff : unsent t.task.pc = decide (block.retransmits = 0) := by rw [pc]; rfl
  have moved := atBlock_after at_ carried offset szx ⟨rfl, rfl, rfl⟩
  obtain ⟨upTo, reach⟩ := sound.upTo
  refine
    { carried := carried.trans sound.carried
      aligned := by rw [szx, offset]; exact sound.aligned
      block := ?_, exact := ?_, larger := ?_, shrinking := ?_, copies := ?_, current := ?_
      upTo := ⟨block.stop, ?_, ?_, ?_, ?_⟩ }
  · rintro other here
    dsimp only at here
    rw [now] at here
    cases here
    exact moved
  · intro b member
    rcases List.mem_append.mp member with old | new
    · exact sound.exact b old
    · cases List.mem_singleton.mp new
      exact exact_
  · intro b member
    dsimp only
    rw [szx]
    rcases List.mem_append.mp member with old | new
    · exact sound.larger b old
    · cases List.mem_singleton.mp new
      exact UInt8.le_refl _
  · refine List.pairwise_append.mpr ⟨sound.shrinking, List.pairwise_singleton _ _, ?_⟩
    intro earlier member later new
    cases List.mem_singleton.mp new
    exact sound.larger earlier member
  · intro b
    simp only [List.mem_append, List.mem_singleton, sound.copies b]
    by_cases first : block.retransmits = 0
    · simp [first]
    · have known := sound.current block before (by rw [unsent_iff]; exact decide_eq_false first)
      simp only [if_neg first, List.not_mem_nil, or_false]
      refine ⟨fun either => either.elim id fun same => ?_, Or.inl⟩
      rw [same]
      exact known
  · rintro other here -
    dsimp only at here ⊢
    rw [now] at here
    cases here
    rw [sent]
    by_cases first : block.retransmits = 0
    · simp [first]
    · exact List.mem_append_left _
        (sound.current block before (by rw [unsent_iff]; exact decide_eq_false first))
  · dsimp only
    split
    · rename_i first
      have reached : upTo = t.task.offset := reach.before (by rw [unsent_iff]; exact decide_eq_true first)
      rw [← stop]
      refine .snoc ?_
      rw [start, ← reached]
      exact reach.tiles
    · rename_i again
      have reached := reach.behind block before (by rw [unsent_iff]; exact decide_eq_false again)
      rw [List.append_nil, ← reached]
      exact reach.tiles
  · intro first
    dsimp only at first
    rw [handed] at first
    cases first
  · intro other here _
    dsimp only at here
    rw [now] at here
    cases here
    rfl
  · intro b member last
    have inside : block.stop ≤ payload.length := by
      rw [at_.stop, ← sound.carried]
      exact Nat.min_le_right _ _
    rcases List.mem_append.mp member with old | new
    · -- after a last block nothing is left to be sent for the first time
      have all := reach.whole b old last
      by_cases first : block.retransmits = 0
      · have reached : upTo = t.task.offset :=
          reach.before (by rw [unsent_iff]; exact decide_eq_true first)
        have below := at_.inside
        rw [sound.carried] at below
        omega
      · exact (reach.behind block before (by rw [unsent_iff]; exact decide_eq_false first)).symm.trans all
    · cases List.mem_singleton.mp new
      have announced : block.more = false := last
      rw [at_.more, sound.carried] at announced
      have reaches := of_decide_eq_false announced
      omega

/-- A block was answered with 2.31: the offset goes behind it, and the size that
holds from now on still divides it. -/
private theorem sound_advances {task : BlockWrite} {block : Block} {channel : Nat}
    (sound : Sound payload t) (carried : task.payload = t.task.payload)
    (pc : t.task.pc = .wait block channel) (more : block.more = true)
    (offset : task.offset = block.stop) (szx : task.szx ≤ t.task.szx) (head : task.pc = .next) :
    Sound payload { t with task } := by
  have before : atBlock t.task.pc = some block := by rw [pc]; rfl
  have at_ := sound.block block before
  have followed : block.stop < t.task.payload.length := by
    rw [at_.more] at more
    exact of_decide_eq_true more
  have full : block.stop = t.task.offset + Client.blockSize t.task.szx := by
    have stop := at_.stop
    omega
  obtain ⟨upTo, reach⟩ := sound.upTo
  refine
    { carried := carried.trans sound.carried
      aligned := ?_
      block := fun other here => by rw [head] at here; cases here
      exact := sound.exact
      larger := fun b member => UInt8.le_trans szx (sound.larger b member)
      shrinking := sound.shrinking
      copies := sound.copies
      current := fun other here => by rw [head] at here; cases here
      upTo := ⟨upTo, reach.tiles, fun _ => ?_, fun other here => (by rw [head] at here; cases here),
        reach.whole⟩ }
  · rw [offset, full]
    refine Nat.dvd_trans (blockSize_dvd szx) ?_
    exact Nat.dvd_add sound.aligned (Nat.dvd_refl _)
  · exact (reach.behind block before (by rw [pc]; rfl)).trans offset.symm

private theorem sound_step (sound : Sound payload t) (ran : t.step env turn = some t') :
    Sound payload t' := by
  obtain ⟨outcome, moved, ran⟩ := Option.bind_eq_some_iff.mp ran
  cases ran
  obtain ⟨carried, move⟩ := step_move moved
  have unchanged {task : BlockWrite} (silent : Stream.sends t.task = none)
      (kept : Sound payload { t with task }) :
      Sound payload {
        task
        sent := t.sent ++ (Stream.sends t.task).toList.map Prod.fst
        fresh := t.fresh ++ ((Stream.sends t.task).toList.filter Prod.snd).map Prod.fst } := by
    simp only [silent, Option.toList_none, List.filter_nil, List.map_nil, List.append_nil]
    exact kept
  obtain ⟨upTo, reach⟩ := sound.upTo
  cases move with
  | leaves silent gone spent szx offset =>
    refine unchanged silent (sound_silent sound carried szx ?_ ?_ ?_ ⟨upTo, reach.tiles, ?_, ?_, reach.whole⟩)
    · rw [szx, offset]
      exact sound.aligned
    · exact fun other here => by rw [gone] at here; cases here
    · exact fun other here => by rw [gone] at here; cases here
    · exact fun first => by rw [spent] at first; cases first
    · exact fun other here => by rw [gone] at here; cases here
  | takes head pc first at_ offset szx =>
    have silent : Stream.sends t.task = none := by simp [Stream.sends, head]
    have unsent_ : unsent outcome.task.pc = true := by
      rw [pc]
      exact decide_eq_true first
    refine unchanged silent (sound_silent sound carried szx ?_ ?_ ?_ ⟨upTo, reach.tiles, ?_, ?_, reach.whole⟩)
    · rw [szx, offset]
      exact sound.aligned
    · intro other here
      rw [pc] at here
      cases here
      exact atBlock_after at_ carried offset szx ⟨rfl, rfl, rfl⟩
    · exact fun other _ handed => by rw [unsent_] at handed; cases handed
    · exact fun _ => (reach.before (by rw [head]; rfl)).trans offset.symm
    · exact fun other _ handed => by rw [unsent_] at handed; cases handed
  | stays silent before now same kept offset szx =>
    exact unchanged silent (sound_stays sound carried before now same kept offset szx)
  | @sends block channel pc now handed offset szx =>
    have sent := sound_sends sound carried pc now handed offset szx
    by_cases first : block.retransmits = 0
    · simpa [Stream.sends, pc, first] using sent
    · simpa [Stream.sends, pc, first] using sent
  | advances pc more offset szx head =>
    have silent : Stream.sends t.task = none := by simp [Stream.sends, pc]
    exact unchanged silent (sound_advances sound carried pc more offset szx head)

theorem reached_sound (reached : (Stream.machine env payload).Reaches Machine.always t) :
    Sound payload t := by
  refine reached.invariant _ ?_ fun t turn t' _ sound _ ran => sound_step sound ran
  rintro t ⟨-, addr, op, path, contentFormat, mid, rfl⟩
  exact
    { carried := rfl
      aligned := Nat.dvd_zero _
      block := fun _ here => (by cases here)
      exact := fun _ member => (by cases member)
      larger := fun _ member => (by cases member)
      shrinking := .nil
      copies := fun _ => Iff.rfl
      current := fun _ here => (by cases here)
      upTo := ⟨0, .nil, fun _ => rfl, fun _ here => (by cases here), fun _ member => (by cases member)⟩ }

/-- **The blocks are the payload**: in every transfer of a payload that is too
long for one request, whatever is answered and whenever, every block sent is the
part of the payload that its number and size name, sizes never grow, and the
first copies of the blocks follow each other and make up a prefix of the
payload, which is all of it once a block that announces no more was sent. -/
theorem blocks_exactly (reached : (Stream.machine env payload).Reaches Machine.always t) :
    Exactly payload t := by
  have sound := reached_sound reached
  obtain ⟨upTo, reach⟩ := sound.upTo
  have together := tiles_flatMap reach.tiles fun b member => sound.exact b ((sound.copies b).mpr member)
  refine
    { exact := sound.exact
      shrinking := sound.shrinking
      copies := sound.copies
      first := tiles_head reach.tiles
      contiguous := tiles_isChain reach.tiles
      isPrefix := ?_
      whole := ?_ }
  · rw [together]
    exact List.take_prefix _ _
  · rintro ⟨b, member, last⟩
    rw [together, reach.whole b member last]
    exact List.take_length

/-! ## A write of 600 bytes -/

/-- The device has answered: 2.31, and it wants blocks of 256 bytes. -/
def smallerBlocks : Server :=
  { Peer.server with
    blockChannels := ⟨1, fun _ => .sent
      { type := .acknowledgement, code := .response .continue, messageId := 1, token := []
        block1 := some [0x0c] }⟩ }

def writing : Stream where
  task := Link.spawned Peer.addr (.new 1 (.write ⟨5, 0, 0⟩ [] 42) 0 0) ⟨5, 0, 0⟩
    (List.replicate 600 7) 42 1

/-- The first block is sent twice and answered, then the second is sent. -/
def turns : List Turn :=
  List.replicate 3 ⟨Peer.server, {}⟩ ++ ⟨Peer.server, { timeout := true }⟩ ::
    List.replicate 3 ⟨Peer.server, {}⟩ ++ ⟨smallerBlocks, {}⟩ :: List.replicate 3 ⟨Peer.server, {}⟩

/-- The second block has number 2, and with it the whole payload was sent. -/
theorem smallerBlocks_exactly : ∃ last,
    (Stream.machine Peer.env (List.replicate 600 7)).exec Machine.always writing turns = some last ∧
      last.sent.map (fun b => (b.num, b.more, b.szx)) = [(0, true, 5), (0, true, 5), (2, false, 4)] ∧
      Exactly (List.replicate 600 7) last ∧
      last.fresh.flatMap SentBlock.chunk = List.replicate 600 7 := by
  obtain ⟨last, ran, reached, seen⟩ := Machine.exec_reaches
    (Stream.machine Peer.env (List.replicate 600 7)) Machine.always writing turns
    (fun t => t.sent.map (fun b => (b.num, b.more, b.szx)) == [(0, true, 5), (0, true, 5), (2, false, 4)])
    ⟨by rw [List.length_replicate]; decide, _, _, _, _, _, rfl⟩ (by decide +kernel)
  have blocks := eq_of_beq seen
  have exactly := blocks_exactly reached
  refine ⟨last, ran, blocks, exactly, exactly.whole ?_⟩
  have member : (2, false, 4) ∈ last.sent.map (fun b => (b.num, b.more, b.szx)) := by
    rw [blocks]
    decide
  obtain ⟨b, sent, same⟩ := List.mem_map.mp member
  exact ⟨b, sent, congrArg (fun x => x.2.1) same⟩

end Lwm2mServer.BlockStream
