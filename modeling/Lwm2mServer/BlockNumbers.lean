import Lwm2mServer.BlockStream

/-! Block numbers in the Block1 option. `encode_block1` writes the low three
bytes of its value and drops the rest, so that the option has room for
`2 ^ 20` blocks. Nothing stops a transfer at that number: a payload of more than
`2 ^ 24` bytes goes on beyond it if the device asks for the smallest blocks. -/
namespace Lwm2mServer.BlockStream
open Library BlockTransfer

/-- The option of the block is read back as its number, flag and size. -/
def Denotes (block : SentBlock) : Prop :=
  ∃ bytes, block.block1 = some bytes ∧ bytes.length ≤ 3 ∧
    decodeBlock1 bytes = (block.num, block.more, block.szx)

/-- Where the blocks that can be numbered end, in bytes. -/
def numbered (szx : UInt8) : Nat := 2 ^ 20 * Client.blockSize szx

variable {env : Env} {payload : Bytes} {t t' : Stream} {num : Nat} {more : Bool} {szx : UInt8}

/-! ## The option -/

theorem encodeBlock1_length (num : Nat) (more : Bool) (szx : UInt8) :
    (Client.encodeBlock1 num more szx).length ≤ 3 := by
  unfold Client.encodeBlock1
  dsimp only
  split
  · simp
  · split <;> simp

/-- Three bytes hold no larger number. -/
private theorem decodeBlock1_lt {bytes : Bytes} (short : bytes.length ≤ 3) :
    (decodeBlock1 bytes).1 < 2 ^ 20 := by
  match bytes, short with
  | [], _ => decide
  | [a], _ =>
    have digit := a.toNat_lt
    simp only [decodeBlock1, List.foldl_cons, List.foldl_nil]
    omega
  | [a, b], _ =>
    have digits := And.intro a.toNat_lt b.toNat_lt
    simp only [decodeBlock1, List.foldl_cons, List.foldl_nil]
    omega
  | [a, b, c], _ =>
    have digits := And.intro a.toNat_lt (And.intro b.toNat_lt c.toNat_lt)
    simp only [decodeBlock1, List.foldl_cons, List.foldl_nil]
    omega

theorem decodeBlock1_encodeBlock1_iff (small : szx < 8) :
    decodeBlock1 (Client.encodeBlock1 num more szx) = (num, more, szx) ↔ num < 2 ^ 20 := by
  constructor
  · intro same
    have bound := decodeBlock1_lt (encodeBlock1_length num more szx)
    rwa [same] at bound
  · exact fun counted => decodeBlock1_encodeBlock1 more counted small

/-! ## Sizes -/

/-- No size is larger than the one a transfer starts with. -/
private def SizesSmall (t : Stream) : Prop :=
  t.task.szx ≤ Client.blockSzx ∧ ∀ block ∈ t.sent, block.szx ≤ Client.blockSzx

private theorem sizesSmall_step {turn : Turn} (sizes : SizesSmall t) (ran : t.step env turn = some t') :
    SizesSmall t' := by
  obtain ⟨outcome, moved, ran⟩ := Option.bind_eq_some_iff.mp ran
  cases ran
  obtain ⟨task, sent⟩ := sizes
  have after : outcome.task.szx ≤ t.task.szx := by
    cases (step_move moved).2 with
    | leaves _ _ _ same | takes _ _ _ _ _ same | stays _ _ _ _ _ _ same | sends _ _ _ _ same =>
      rw [same]
      exact UInt8.le_refl _
    | advances _ _ _ shrinks => exact shrinks
  refine ⟨UInt8.le_trans after task, fun block member => ?_⟩
  rcases List.mem_append.mp member with old | new
  · exact sent block old
  · obtain ⟨⟨fresh, first⟩, handed, rfl⟩ := List.mem_map.mp new
    unfold Stream.sends at handed
    split at handed
    · cases List.mem_singleton.mp handed
      exact task
    · cases handed

private theorem reached_sizes (reached : (Stream.machine env payload).Reaches Machine.always t) :
    SizesSmall t := by
  refine reached.invariant _ ?_ fun _ _ _ _ sizes _ ran => sizesSmall_step sizes ran
  rintro t ⟨-, addr, op, path, contentFormat, mid, rfl⟩
  exact ⟨UInt8.le_refl _, fun _ member => by cases member⟩

/-! ## Blocks -/

/-- What is in the option of a block that was sent. -/
private theorem denotes_iff_num (reached : (Stream.machine env payload).Reaches Machine.always t)
    {block : SentBlock} (member : block ∈ t.sent) : Denotes block ↔ block.num < 2 ^ 20 := by
  have small : block.szx < 8 := UInt8.lt_of_le_of_lt ((reached_sizes reached).2 block member) (by decide)
  have option := ((reached_sound reached).exact block member).block1
  rw [← decodeBlock1_encodeBlock1_iff small]
  constructor
  · rintro ⟨bytes, held, -, same⟩
    cases option.symm.trans held
    exact same
  · exact fun same => ⟨_, option, encodeBlock1_length _ _ _, same⟩

/-- **The option denotes its block exactly up to the last number there is room
for.** -/
theorem denotes_iff (reached : (Stream.machine env payload).Reaches Machine.always t) :
    ∀ block ∈ t.sent, Denotes block ↔ block.start < numbered block.szx := by
  intro block member
  rw [denotes_iff_num reached member, SentBlock.start, numbered]
  exact (Nat.mul_lt_mul_right (Nat.two_pow_pos _)).symm

/-- A write of 600 bytes: its second block can be numbered. -/
theorem denotes_iff_smaller : ∃ last, ∃ block ∈ last.sent,
    (Stream.machine Peer.env (List.replicate 600 7)).exec Machine.always writing turns = some last ∧
      block.num = 2 ∧ Denotes block := by
  obtain ⟨last, ran, reached, seen⟩ := Machine.exec_reaches
    (Stream.machine Peer.env (List.replicate 600 7)) Machine.always writing turns
    (fun t => t.sent.any fun b => b.num == 2 && b.szx == 4)
    ⟨by rw [List.length_replicate]; decide, _, _, _, _, _, rfl⟩ (by decide +kernel)
  obtain ⟨block, member, same⟩ := List.any_eq_true.mp seen
  obtain ⟨second, size⟩ := Bool.and_eq_true_iff.mp same
  have num : block.num = 2 := eq_of_beq second
  have szx : block.szx = 4 := eq_of_beq size
  refine ⟨last, block, member, ran, num, (denotes_iff reached block member).mpr ?_⟩
  rw [SentBlock.start, num, szx]
  decide

/-- Sixteen mebibytes can be numbered at any size. -/
theorem denotes_of_length (reached : (Stream.machine env payload).Reaches Machine.always t)
    (few : payload.length ≤ 2 ^ 24) : ∀ block ∈ t.sent, Denotes block := by
  intro block member
  have inside := ((reached_sound reached).exact block member).inside
  have sixteen : 2 ^ 4 ≤ Client.blockSize block.szx :=
    Nat.pow_le_pow_right (by decide) (Nat.le_add_left 4 _)
  rw [denotes_iff_num reached member]
  by_contra large
  have beyond : 2 ^ 20 * 2 ^ 4 ≤ block.start := Nat.mul_le_mul (Nat.le_of_not_lt large) sixteen
  omega

/-! ## A payload of one byte more -/

/-- The device has answered: 2.31, and it wants blocks of 16 bytes. -/
def smallestBlocks : Server :=
  { Peer.server with
    blockChannels := ⟨1, fun _ => .sent
      { type := .acknowledgement, code := .response .continue, messageId := 1, token := []
        block1 := some [0x00] }⟩ }

/-- The machine with an environment that encodes every packet. -/
def transfer (payload : Bytes) : Machine Stream Turn := Stream.machine Peer.env payload

/-- The task has handed a block to the socket and waits for its answer. -/
private structure Handed (t t' : Stream) (block : Block) : Prop where
  waits : ∃ channel, t'.task.pc = .wait block channel
  szx : t'.task.szx = t.task.szx
  offset : t'.task.offset = t.task.offset
  payload : t'.task.payload = t.task.payload
  stop : block.stop = min (t.task.offset + Client.blockSize t.task.szx) t.task.payload.length
  more : block.more = decide (block.stop < t.task.payload.length)
  sent : sentBlock t.task block ∈ t'.sent

private theorem handed (reached : (transfer payload).Reaches Machine.always t) (head : t.task.pc = .next)
    (inside : t.task.offset < t.task.payload.length) :
    ∃ t' block, (transfer payload).Reaches Machine.always t' ∧ Handed t t' block := by
  have quiet : Stream.sends t.task = none := by simp [Stream.sends, head]
  obtain ⟨block, mid, stop, more, first, taken⟩ : ∃ block mid,
      block.stop = min (t.task.offset + Client.blockSize t.task.szx) t.task.payload.length ∧
      block.more = decide (block.stop < t.task.payload.length) ∧ block.retransmits = 0 ∧
      Stream.step Peer.env t ⟨Peer.server, {}⟩ =
        some { t with task := { t.task with mid, pc := .arm block } } := by
    let stop := min (t.task.offset + Client.blockSize t.task.szx) t.task.payload.length
    let more := decide (stop < t.task.payload.length)
    let packet := Client.buildBlockPut t.task.path t.task.token t.task.mid
      ((t.task.payload.drop t.task.offset).take (stop - t.task.offset)) t.task.contentFormat
      (Client.encodeBlock1 (t.task.offset / Client.blockSize t.task.szx) more t.task.szx)
    refine ⟨⟨packet, stop, more, 0⟩, Client.skipMids t.task.mid 1, rfl, rfl, rfl, ?_⟩
    simp only [Stream.step, BlockWrite.step, head, if_pos inside, quiet, Option.toList_none,
      List.filter_nil, List.map_nil, List.append_nil, Option.bind_eq_bind]
    rfl
  have sending : Stream.step Peer.env { t with task := { t.task with mid, pc := .arm block } }
      ⟨Peer.server, {}⟩ = some { t with task := { t.task with mid, pc := .send block 0 } } := by
    simp [Stream.step, BlockWrite.step, Stream.sends]
    rfl
  have waiting : Stream.step Peer.env { t with task := { t.task with mid, pc := .send block 0 } }
      ⟨Peer.server, {}⟩ = some
        { task := { t.task with mid, pc := .wait block 0 }
          sent := t.sent ++ [sentBlock t.task block]
          fresh := t.fresh ++ [sentBlock t.task block] } := by
    simp [Stream.step, BlockWrite.step, Stream.sends, first]
    rfl
  have reached := ((reached.step trivial taken).step trivial sending).step trivial waiting
  exact ⟨_, block, reached, ⟨0, rfl⟩, rfl, rfl, rfl, stop, more, by simp⟩

/-- From the head of the loop to its next round, with the smallest blocks. -/
private theorem round (reached : (transfer payload).Reaches Machine.always t) (head : t.task.pc = .next)
    (follows : t.task.offset + Client.blockSize t.task.szx < t.task.payload.length) :
    ∃ t', (transfer payload).Reaches Machine.always t' ∧ t'.task.pc = .next ∧ t'.task.szx = 0 ∧
      t'.task.offset = t.task.offset + Client.blockSize t.task.szx ∧
      t'.task.payload = t.task.payload := by
  obtain ⟨t', block, waits, sent⟩ := handed reached head (by omega)
  obtain ⟨channel, pc⟩ := sent.waits
  have stop : block.stop = t.task.offset + Client.blockSize t.task.szx := by
    rw [sent.stop]
    omega
  have more : block.more = true := by
    rw [sent.more, stop]
    exact decide_eq_true follows
  have answered : (transfer payload).step t' ⟨smallestBlocks, {}⟩ = some
      { t' with task := { t'.task with firstAckTx := none, szx := 0, offset := block.stop, pc := .next } } := by
    have quiet : Stream.sends t'.task = none := by simp [Stream.sends, pc]
    have none_ : Client.block1SzxFromResponse
        { type := .acknowledgement, code := .response .continue, messageId := 1, token := []
          block1 := some [0x00] } = some 0 := by decide
    have zero : (if (0 : UInt8) < t'.task.szx then 0 else t'.task.szx) = 0 := by
      split
      · rfl
      · rename_i least
        rw [UInt8.lt_iff_toNat_lt] at least
        exact UInt8.toNat_inj.mp (Nat.le_zero.mp (Nat.le_of_not_lt least))
    simp [transfer, Stream.machine, Stream.step, BlockWrite.step, pc, quiet, smallestBlocks,
      BlockWrite.received, more, none_, zero]
  exact ⟨_, waits.step trivial answered, rfl, rfl, stop, sent.payload⟩

/-- Round by round to any offset. -/
private theorem offset_reached (long : 2 ^ 24 < payload.length) (rounds : Nat)
    (within : 512 + 16 * rounds ≤ 2 ^ 24) :
    ∃ t, (transfer payload).Reaches Machine.always t ∧ t.task.pc = .next ∧ t.task.szx = 0 ∧
      t.task.offset = 512 + 16 * rounds ∧ t.task.payload = payload := by
  induction rounds with
  | zero =>
    have first : Client.blockSize Client.blockSzx = 512 := by decide
    let start : Stream :=
      { task := Link.spawned Peer.addr (.new 1 (.write ⟨5, 0, 0⟩ payload 42) 0 0) ⟨5, 0, 0⟩ payload 42 1 }
    have begun : (transfer payload).Reaches Machine.always start := by
      refine .start ⟨?_, _, _, _, _, _, rfl⟩
      rw [Client.blockThreshold, first]
      omega
    obtain ⟨t, reached, head, szx, offset, carried⟩ := round begun rfl (by
      change 0 + Client.blockSize Client.blockSzx < payload.length
      rw [first]
      omega)
    refine ⟨t, reached, head, szx, ?_, carried⟩
    rw [offset]
    change 0 + Client.blockSize Client.blockSzx = 512
    rw [first]
  | succ rounds ih =>
    have sixteen : Client.blockSize 0 = 16 := by decide
    obtain ⟨t, reached, head, szx, offset, carried⟩ := ih (by omega)
    obtain ⟨t', reached', head', szx', offset', carried'⟩ := round reached head (by
      rw [szx, offset, sixteen, carried]
      omega)
    refine ⟨t', reached', head', szx', ?_, carried'.trans carried⟩
    rw [offset', szx, offset, sixteen]
    omega

/-- The block at `2 ^ 24` is said to be block 0. -/
theorem last_block_unnumbered :
    (∃ t, (Stream.machine Peer.env (List.replicate (2 ^ 24 + 1) 7)).Reaches Machine.always t ∧
      ∃ block ∈ t.sent, block.num = 2 ^ 20 ∧ block.block1 = some [0, 0, 0] ∧ ¬Denotes block) ∧
    ¬ ∀ env payload t, (Stream.machine env payload).Reaches Machine.always t →
      ∀ block ∈ t.sent, Denotes block := by
  have found : ∃ t, (Stream.machine Peer.env (List.replicate (2 ^ 24 + 1) 7)).Reaches Machine.always t ∧
      ∃ block ∈ t.sent, block.num = 2 ^ 20 ∧ block.block1 = some [0, 0, 0] ∧ ¬Denotes block := by
    have size : (List.replicate (2 ^ 24 + 1) (7 : UInt8)).length = 2 ^ 24 + 1 := List.length_replicate
    obtain ⟨t, reached, head, szx, offset, carried⟩ :=
      offset_reached (Nat.lt_of_lt_of_eq (Nat.lt_succ_self _) size.symm) 1048544 (by omega)
    obtain ⟨t', block, reached', sent⟩ := handed reached head (by
      rw [offset, carried, size]
      omega)
    have sixteen : Client.blockSize 0 = 16 := by decide
    have number : (sentBlock t.task block).num = 2 ^ 20 := by
      rw [sentBlock, szx, offset, sixteen]
      change (512 + 16 * 1048544) / 16 = 2 ^ 20
      decide
    have last : block.more = false := by
      rw [sent.more, sent.stop, carried, size, szx, offset, sixteen]
      exact decide_eq_false (by omega)
    have option := ((reached_sound reached').exact _ sent.sent).block1
    refine ⟨t', reached', _, sent.sent, number, ?_, ?_⟩
    · rw [option, number]
      simp only [sentBlock, last, szx]
      decide
    · rw [denotes_iff_num reached' sent.sent, number]
      exact Nat.lt_irrefl _
  refine ⟨found, fun all => ?_⟩
  obtain ⟨t, reached, block, member, -, -, lost⟩ := found
  exact lost (all _ _ t reached block member)

end Lwm2mServer.BlockStream
