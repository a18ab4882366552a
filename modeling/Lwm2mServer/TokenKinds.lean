import Lwm2mServer.Exchanges
import Lwm2mServer.OperationIds
import Lwm2mServer.WriteTokens

/-! Tokens of different kinds. Four counters hand out the values tokens are
made of: `NEXT_OP_ID` from 1 on, and three from the upper half of the 32 bits
on, `INTERNAL_OP_ID` and `NEXT_PING_OP_ID` both from `0x80000000` and the
bootstrap registry's from there plus less than a second of nanoseconds. While
each has advanced fewer than `2 ^ 30` times, the operations of IPC commands are
clear of all others. The three upper ranges overlap: their requests are told
apart only as long as no value is handed out that is still the token of a
request of another of the three. -/
namespace Lwm2mServer.TokenKinds
open Library Exchanges GatewaySteps InFlight OperationIds WriteAcks WriteTokens

/-! ## The bootstrap registry's tokens -/

/-- A GET /0/0 waits under the token. -/
def Session (c : Core) (token : Token) : Prop := (c.boot.byToken.lookup token).isSome

/-- A write step has its channel under the token, or is about to put it there. -/
def Writing (c : Core) (token : Token) : Prop :=
  (c.boot.writeAcks.lookup token).isSome ∨ ∃ i, Holds c i token

def Booted (c : Core) (token : Token) : Prop := Session c token ∨ Writing c token

/-- The token a write phase is about to register. -/
def holding (task : WritePhase) : Option Token :=
  match task.pc with
  | .register _ token _ => some token
  | _ => none

theorem holds_iff {c : Core} {token : Token} :
    (∃ i, Holds c i token) ↔ ∃ task ∈ c.phases.all, holding task = some token := by
  constructor
  · rintro ⟨i, task, step, packet, held, pc⟩
    exact ⟨task, List.mem_of_getElem? held, by rw [holding, pc]⟩
  · rintro ⟨task, member, held⟩
    obtain ⟨i, at_⟩ := List.getElem?_of_mem member
    unfold holding at held
    split at held
    · rename_i step found packet pc
      cases held
      exact ⟨i, task, step, packet, at_, pc⟩
    · cases held

instance (c : Core) (token : Token) : Decidable (Session c token) :=
  inferInstanceAs (Decidable (_ = true))

instance (c : Core) (token : Token) : Decidable (∃ i, Holds c i token) :=
  decidable_of_iff _ holds_iff.symm

instance (c : Core) (token : Token) : Decidable (Writing c token) :=
  inferInstanceAs (Decidable (_ ∨ _))

instance (c : Core) (token : Token) : Decidable (Booted c token) :=
  inferInstanceAs (Decidable (_ ∨ _))

variable {env : Env} {c next : Core} {action : Action} {token : Token} {first : UInt32}

private theorem holds_spawn {i : Nat} {task : WritePhase} (fresh : holding task = none)
    (holds : Holds { c with phases := c.phases.spawn task } i token) : Holds c i token := by
  obtain ⟨found, step, packet, held, pc⟩ := holds
  rw [Tasks.get?_spawn] at held
  split at held
  · cases held
    rw [holding, pc] at fresh
    cases fresh
  · exact ⟨found, step, packet, held, pc⟩

/-- A token comes to be used for a write step only from the counter. -/
theorem write_cases (moved : Transition env c action next) (held : Writing next token) :
    Writing c token ∨ (token = tokenOfId c.boot.tokenCounter ∧ .allocated token ∈ next.log ∧
      ∃ i choice task step security, action = .phase i choice ∧ c.phases.get? i = some task ∧
        task.pc = .alloc step security) := by
  cases moved with
  | startPhase =>
    rcases held with stored | ⟨i, holds⟩
    · exact Or.inl (Or.inl stored)
    · exact Or.inl (Or.inr ⟨i, holds_spawn rfl holds⟩)
  | answer position found =>
    rcases held with stored | holds
    · simp only [Table.lookup_erase_if] at stored
      split at stored
      · cases stored
      · exact Or.inl (Or.inl stored)
    · exact Or.inl (Or.inr holds)
  | @phase i task outcome choice at_ move =>
    have other (stored : (outcome.boot.writeAcks.lookup token).isSome →
          (c.boot.writeAcks.lookup token).isSome)
        (quiet : ∀ step packet, outcome.pc ≠ .register step token packet) : Writing c token := by
      rcases held with now | ⟨j, holds⟩
      · exact Or.inl (stored now)
      · rcases holds_update at_ holds with ⟨-, before⟩ | ⟨-, step, packet, pc⟩
        · exact Or.inr ⟨j, before⟩
        · exact (quiet step packet pc).elim
    cases move with
    | @alloc step security packet pc =>
      rcases held with now | ⟨j, holds⟩
      · exact Or.inl (Or.inl now)
      · rcases holds_update at_ holds with ⟨-, before⟩ | ⟨-, _, _, equal⟩
        · exact Or.inl (Or.inr ⟨j, before⟩)
        · cases equal
          exact Or.inr ⟨rfl, List.mem_cons_self, i, choice, task, step, security, rfl, at_, pc⟩
    | @register step registered packet pc =>
      rcases held with now | ⟨j, holds⟩
      · rw [Table.lookup_insert_if] at now
        split at now
        · rename_i same
          exact Or.inl (Or.inr ⟨i, task, step, packet, at_, same ▸ pc⟩)
        · exact Or.inl (Or.inl now)
      · rcases holds_update at_ holds with ⟨-, before⟩ | ⟨-, _, _, equal⟩
        · exact Or.inl (Or.inr ⟨j, before⟩)
        · cases equal
    | cancel =>
      refine Or.inl (other (fun now => ?_) fun _ _ equal => by cases equal)
      rw [Table.lookup_erase_if] at now
      split at now
      · cases now
      · exact now
    | acknowledged _ _ _ goes =>
      refine Or.inl (other id fun step packet => ?_)
      rcases goes with rfl | ⟨-, rfl⟩ <;> nofun
    | release =>
      refine Or.inl (other id fun step packet => ?_)
      dsimp only
      split <;> nofun
    | _ => exact Or.inl (other (fun now => now) fun _ _ equal => by cases equal)
  | _ => exact Or.inl held

/-- Every token in use by the bootstrap registry was handed out by its counter. -/
def Handed (c : Core) : Prop := ∀ token, Session c token → .allocated token ∈ c.log

/-- No token serves a GET /0/0 and a write step. -/
def Split (c : Core) : Prop := ∀ token, Session c token → ¬ Writing c token

theorem handed_step (handed : Handed c) (moved : Transition env c action next) : Handed next := by
  intro token held
  rcases session_cases moved held with before | ⟨_, _, _, _, _, _, _, logged⟩
  · exact moved.mem_log (handed token before)
  · exact logged

theorem writing_handed (channels : Channels c) (tokens : Tokens first c) (held : Writing c token) :
    .allocated token ∈ c.log := by
  rcases held with stored | ⟨i, holds⟩
  · obtain ⟨channel, found⟩ := Option.isSome_iff_exists.mp stored
    obtain ⟨⟨i, step, registered⟩, -⟩ := channels.stored token channel found
    exact tokens.used i step token channel registered
  · exact tokens.held i token holds

/-- The counter's next value was not handed out yet. -/
theorem next_fresh (tokens : Tokens first c) (few : issues allocatedToken c.log < 2 ^ 32)
    (logged : .allocated token ∈ c.log) : token ≠ tokenOfId c.boot.tokenCounter := by
  rw [tokens.counter]
  exact Numbered.fresh (tokenAt_distinct first) tokens.numbered few logged rfl

theorem split_step (split : Split c) (handed : Handed c) (channels : Channels c)
    (tokens : Tokens first c) (few : issues allocatedToken c.log < 2 ^ 32)
    (moved : Transition env c action next) : Split next := by
  intro token session writing
  rcases session_cases moved session with before | ⟨_, _, _, recv, _, _, named, _⟩
  · rcases write_cases moved writing with before' | ⟨named, _⟩
    · exact split token before before'
    · exact next_fresh tokens few (handed token before) named
  · rcases write_cases moved writing with before' | ⟨_, _, _, _, _, _, _, phase, _⟩
    · exact next_fresh tokens few (writing_handed channels tokens before') named
    · cases recv.symm.trans phase

/-! ## The condition -/

section Gateway
variable {g g' : Gateway} {act : GatewayAction}

/-- Each counter has advanced fewer than `2 ^ 30` times. -/
def Few (g : Gateway) : Prop :=
  g.nextOpId.toNat - 1 < 2 ^ 30 ∧ g.internalOpId.toNat - 2 ^ 31 < 2 ^ 30 ∧
    g.nextPingOpId.toNat - 2 ^ 31 < 2 ^ 30 ∧ issues allocatedToken g.server.log < 2 ^ 30

/-- The value is not that of an operation under way, nor, for the two id
counters of the upper half, of a request of the bootstrap registry. -/
def Unused (g : Gateway) : Counter × UInt32 → Prop
  | (.nextOp, _) => True
  | (.token, value) => value ∉ opIds g
  | (.internal, value) | (.ping, value) =>
    value ∉ opIds g ∧ ¬ Booted g.server.core (tokenOfId value)

/-- The counters have not gone far, and what the three upper ones hand out is
not in use. -/
def Separate (g : Gateway) (act : GatewayAction) : Prop :=
  Few g ∧ ∀ handed ∈ handsOut g act, Unused g handed

instance (g : Gateway) : Decidable (Few g) := inferInstanceAs (Decidable (_ ∧ _ ∧ _ ∧ _))

instance (g : Gateway) : (handed : Counter × UInt32) → Decidable (Unused g handed)
  | (.nextOp, _) => isTrue trivial
  | (.token, value) => inferInstanceAs (Decidable (value ∉ opIds g))
  | (.internal, value) | (.ping, value) => inferInstanceAs (Decidable (value ∉ opIds g ∧ ¬ _))

instance (g : Gateway) (act : GatewayAction) : Decidable (Separate g act) :=
  inferInstanceAs (Decidable (_ ∧ ∀ handed ∈ handsOut g act, _))

/-! ## What every run keeps -/

structure Apart (g : Gateway) : Prop where
  tidy : Tidy g.server.devices.byId
  nodup : (opIds g).Nodup
  owned : BlocksOwned g
  nextOp : 1 ≤ g.nextOpId.toNat
  internal : 2 ^ 31 ≤ g.internalOpId.toNat
  ping : 2 ^ 31 ≤ g.nextPingOpId.toNat
  ids : ∀ id ∈ opIds g, id.toNat < g.nextOpId.toNat ∨ 2 ^ 31 ≤ id.toNat
  tokens : ∃ first, 2 ^ 31 ≤ first.toNat ∧ first.toNat < 2 ^ 31 + 10 ^ 9 ∧ Tokens first g.server.core
  handed : Handed g.server.core
  split : Split g.server.core
  kinds : ∀ id ∈ opIds g, ¬ Booted g.server.core (tokenOfId id)

/-- The bootstrap registry's tokens are made of values of the upper half. -/
theorem Apart.booted_upper (apart : Apart g) (channels : Channels g.server.core) (few : Few g)
    {token : Token} (booted : Booted g.server.core token) :
    ∃ value : UInt32, token = tokenOfId value ∧ 2 ^ 31 ≤ value.toNat := by
  obtain ⟨first, above, below, tokens⟩ := apart.tokens
  have logged : .allocated token ∈ g.server.core.log := by
    rcases booted with session | writing
    · exact apart.handed token session
    · exact writing_handed channels tokens writing
  obtain ⟨n, earlier, named⟩ := tokens.numbered.earlier logged rfl
  have few : issues allocatedToken g.server.core.log < 2 ^ 30 := few.2.2.2
  refine ⟨first + UInt32.ofNat n, named, ?_⟩
  rw [UInt32.toNat_add, UInt32.toNat_ofNat']
  omega

/-- What a step gives a new operation, with the counter it comes from. -/
private theorem handed_counter {id : UInt32} (member : id ∈ handedIds g act) :
    ∃ counter, handsOut g act = some (counter, id) ∧ counter ≠ .token ∧ id = current g counter := by
  unfold handedIds at member
  split at member
  · cases member
  · cases member
  · rename_i counter value other hands
    cases List.mem_singleton.mp member
    exact ⟨counter, hands, other, handsOut_current hands⟩

/-- What a counter hands out to an operation is the id of no other. -/
theorem Apart.handed_fresh (apart : Apart g) (separate : Separate g act) {id : UInt32}
    (member : id ∈ handedIds g act) : id ∉ opIds g := by
  obtain ⟨few, unused⟩ := separate
  obtain ⟨counter, hands, other, named⟩ := handed_counter member
  have free := unused _ hands
  cases counter with
  | nextOp =>
    intro used
    have range := apart.ids id used
    have fewOps := few.1
    rw [named, current] at range
    omega
  | internal => exact free.1
  | ping => exact free.1
  | token => exact (other rfl).elim

private theorem advanced_cases (g : Gateway) (act : GatewayAction) (counter : Counter) (value : UInt32) :
    (advanced counter g act value = value ∧ ∀ handed, handsOut g act ≠ some (counter, handed)) ∨
      advanced counter g act value = value + 1 := by
  unfold advanced
  cases hands : handsOut g act with
  | none => exact Or.inl ⟨rfl, nofun⟩
  | some handed =>
    rw [Option.any_some]
    by_cases same : handed.1 = counter
    · rw [decide_eq_true same]
      exact Or.inr rfl
    · rw [decide_eq_false same]
      refine Or.inl ⟨rfl, fun value equal => ?_⟩
      cases equal
      exact same rfl

private theorem toNat_succ {value : UInt32} (below : value.toNat + 1 < 2 ^ 32) :
    (value + 1).toNat = value.toNat + 1 := by
  rw [UInt32.toNat_add]
  have one : (1 : UInt32).toNat = 1 := rfl
  omega

/-- The counters stay in their halves. -/
theorem Apart.counters (apart : Apart g) (few : Few g) (ran : g.step env act = some g') :
    1 ≤ g'.nextOpId.toNat ∧ 2 ^ 31 ≤ g'.internalOpId.toNat ∧ 2 ^ 31 ≤ g'.nextPingOpId.toNat := by
  obtain ⟨nextOp, internal, ping⟩ := counters_step ran
  obtain ⟨fewOps, fewResets, fewPings, -⟩ := few
  have low := apart.nextOp
  have high := apart.internal
  have high' := apart.ping
  rw [nextOp, internal, ping]
  refine ⟨?_, ?_, ?_⟩
  · rcases advanced_cases g act .nextOp g.nextOpId with ⟨same, -⟩ | next
    · rw [same]
      exact low
    · rw [next, toNat_succ (by omega)]
      omega
  · rcases advanced_cases g act .internal g.internalOpId with ⟨same, -⟩ | next
    · rw [same]
      exact high
    · rw [next, toNat_succ (by omega)]
      omega
  · rcases advanced_cases g act .ping g.nextPingOpId with ⟨same, -⟩ | next
    · rw [same]
      exact high'
    · rw [next, toNat_succ (by omega)]
      omega

/-- Ids stay below `NEXT_OP_ID` or in the upper half. -/
theorem Apart.ranges (apart : Apart g) (few : Few g) (ran : g.step env act = some g')
    (within : ∀ id ∈ opIds g', id ∈ handedIds g act ++ opIds g) :
    ∀ id ∈ opIds g', id.toNat < g'.nextOpId.toNat ∨ 2 ^ 31 ≤ id.toNat := by
  intro id member
  obtain ⟨nextOp, -, -⟩ := counters_step ran
  have fewOps := few.1
  have low := apart.nextOp
  have grown : g.nextOpId.toNat ≤ g'.nextOpId.toNat := by
    rw [nextOp]
    rcases advanced_cases g act .nextOp g.nextOpId with ⟨same, -⟩ | next
    · rw [same]
    · rw [next, toNat_succ (by omega)]
      omega
  rcases List.mem_append.mp (within id member) with new | old
  · obtain ⟨counter, hands, other, named⟩ := handed_counter new
    cases counter with
    | nextOp =>
      left
      rcases advanced_cases g act .nextOp g.nextOpId with ⟨-, quiet⟩ | next
      · exact (quiet id hands).elim
      · rw [nextOp, next, toNat_succ (by omega), named, current]
        omega
    | internal =>
      right
      rw [named]
      exact apart.internal
    | ping =>
      right
      rw [named]
      exact apart.ping
    | token => exact (other rfl).elim
  · have range := apart.ids id old
    omega

/-- The bootstrap registry takes a token into use only from its counter. -/
theorem booted_step {token : Token} (ran : g.step env act = some g')
    (booted : Booted g'.server.core token) : Booted g.server.core token ∨
      (token = tokenOfId g.server.boot.tokenCounter ∧
        handsOut g act = some (.token, g.server.boot.tokenCounter)) := by
  rcases server_part ran with same | ⟨action, stepped, kind⟩
  · rw [same] at booted
    exact Or.inl booted
  · have moved := step_transition stepped
    rcases booted with session | writing
    · rcases session_cases moved session with
        before | ⟨choice, endpoint, addr, rfl, position, free, named, -⟩
      · exact Or.inl (Or.inl before)
      · rcases kind with rfl | ⟨call, equal⟩
        · have position : g.server.recv = .begin endpoint addr := position
          have free : g.server.boot.byEndpoint.lookup endpoint = none := free
          exact Or.inr ⟨named, by simp only [handsOut, position, free, if_true]⟩
        · cases equal
    · rcases write_cases moved writing with
        before | ⟨named, -, i, choice, task, step, security, rfl, held, pc⟩
      · exact Or.inl (Or.inr before)
      · rcases kind with rfl | ⟨call, equal⟩
        · have held : g.server.phases.get? i = some task := held
          exact Or.inr ⟨named, by simp only [handsOut, held, Option.bind_some, pc]⟩
        · cases equal

/-- No operation gets the token of a request of the bootstrap registry, and no
such request that of an operation. -/
theorem Apart.keeps_kinds (apart : Apart g) (channels : Channels g.server.core)
    (separate : Separate g act) (ran : g.step env act = some g')
    (within : ∀ id ∈ opIds g', id ∈ handedIds g act ++ opIds g) :
    ∀ id ∈ opIds g', ¬ Booted g'.server.core (tokenOfId id) := by
  intro id member booted
  obtain ⟨few, unused⟩ := separate
  rcases booted_step ran booted with before | ⟨named, hands⟩
  · rcases List.mem_append.mp (within id member) with new | old
    · obtain ⟨counter, hands, other, current⟩ := handed_counter new
      have free := unused _ hands
      cases counter with
      | nextOp =>
        obtain ⟨value, same, upper⟩ := apart.booted_upper channels few before
        rw [← tokenOfId_injective same, current] at upper
        have fewOps := few.1
        change 2 ^ 31 ≤ g.nextOpId.toNat at upper
        omega
      | internal => exact free.2 before
      | ping => exact free.2 before
      | token => exact other rfl
    · exact apart.kinds id old before
  · rw [tokenOfId_injective named] at member
    rcases List.mem_append.mp (within _ member) with new | old
    · obtain ⟨counter, hands', other, -⟩ := handed_counter new
      rw [hands] at hands'
      cases hands'
      exact other rfl
    · exact unused _ hands old

theorem Apart.step (apart : Apart g) (channels : Channels g.server.core) (separate : Separate g act)
    (ran : g.step env act = some g') : Apart g' := by
  obtain ⟨tidy, shrunk⟩ := ids_step apart.tidy apart.nodup ran
  have within : ∀ id ∈ opIds g', id ∈ handedIds g act ++ opIds g := fun id member =>
    shrunk.subset member
  have distinct : (handedIds g act ++ opIds g).Nodup := by
    refine List.nodup_append.mpr ⟨?_, apart.nodup, fun new member old used same => ?_⟩
    · unfold handedIds
      split <;> simp
    · exact apart.handed_fresh separate member (same ▸ used)
  have few : issues allocatedToken g.server.core.log < 2 ^ 32 :=
    Nat.lt_trans separate.1.2.2.2 (by decide)
  obtain ⟨first, above, below, tokens⟩ := apart.tokens
  obtain ⟨nextOp, internal, ping⟩ := apart.counters separate.1 ran
  have core : Tokens first g'.server.core ∧ Handed g'.server.core ∧ Split g'.server.core := by
    rcases server_part ran with same | ⟨action, stepped, -⟩
    · rw [same]
      exact ⟨tokens, apart.handed, apart.split⟩
    · have moved := step_transition stepped
      exact ⟨tokens_step tokens moved, handed_step apart.handed moved,
        split_step apart.split apart.handed channels tokens few moved⟩
  exact {
    tidy
    nodup := by
      obtain ⟨part, same, sub⟩ := shrunk
      exact same.nodup_iff.mp (distinct.sublist sub)
    owned := blocksOwned_step apart.owned ran
    nextOp, internal, ping
    ids := apart.ranges separate.1 ran within
    tokens := ⟨first, above, below, core.1⟩
    handed := core.2.1
    split := core.2.2
    kinds := apart.keeps_kinds channels separate ran within }

/-- The counter of the bootstrap registry starts in the upper half, less than a
second of nanoseconds above its beginning. -/
theorem tokenCounter_start {seed : UInt32} (below : seed.toNat < 1000000000)
    (serverUri : Option String) (included : List String) :
    2 ^ 31 ≤ ((BootstrapRegistry.new seed serverUri).loadIncluded included).tokenCounter.toNat ∧
      ((BootstrapRegistry.new seed serverUri).loadIncluded included).tokenCounter.toNat <
        2 ^ 31 + 10 ^ 9 := by
  have start : ((BootstrapRegistry.new seed serverUri).loadIncluded included).tokenCounter.toNat =
      2 ^ 31 ||| (seed.toNat &&& 0x7FFFFFFF) := by
    simp only [BootstrapRegistry.loadIncluded, BootstrapRegistry.new, UInt32.toNat_or,
      UInt32.toNat_and]
    rfl
  have small : seed.toNat &&& 0x7FFFFFFF ≤ seed.toNat := Nat.and_le_left
  have joined := Nat.two_pow_add_eq_or_of_lt (i := 31) (b := seed.toNat &&& 0x7FFFFFFF) (by omega) 1
  rw [start, show (2 : Nat) ^ 31 = 2 ^ 31 * 1 by omega, ← joined]
  omega

theorem apart_start (initial : (Gateway.machine env).start g) : Apart g := by
  obtain ⟨seed, serverUri, included, now, snapshots, clock, trafficClass, below, -, -, rfl⟩ := initial
  obtain ⟨tidy, none⟩ := restored_tidy now snapshots
  let start := Server.initial seed serverUri included (DeviceRegistry.new.restore now snapshots) clock
  have empty : opIds { server := start, trafficClass } = [] := by
    have flights : held start.devices.byId = [] := none
    rw [opIds, flights]
    rfl
  obtain ⟨above, bound⟩ := tokenCounter_start below serverUri included
  have initial : start.core.Initial := ⟨seed, serverUri, included, rfl⟩
  have low : 1 ≤ (1 : UInt32).toNat := by decide
  have high : 2 ^ 31 ≤ (0x80000000 : UInt32).toNat := by decide
  exact {
    tidy
    nodup := by
      rw [empty]
      exact .nil
    owned := fun token held => by cases held
    nextOp := low
    internal := high
    ping := high
    ids := by
      rw [empty]
      exact fun id member => by cases member
    tokens := ⟨_, above, bound, (tokens_initial initial).1⟩
    handed := fun token held => by cases held
    split := fun token held => by cases held
    kinds := by
      rw [empty]
      exact fun id member => by cases member }

theorem reached_apart (reached : (Gateway.machine env).Reaches Separate g) : Apart g := by
  refine reached.invariant Apart (fun g initial => apart_start initial) ?_
  intro g act g' reached apart separate ran
  exact apart.step (reached_channels (reached_server reached)) separate ran

/-! ## Tokens apart -/

/-- Tokens tell the requests of a gateway apart. -/
structure TokensApart (env : Env) (g : Gateway) : Prop where
  /-- No GET /0/0 and no write step waits under the token of an operation in
  flight or of a block-wise write. -/
  kinds : ∀ token, (g.server.boot.byToken.lookup token).isSome ∨
      (g.server.boot.writeAcks.lookup token).isSome →
    (∀ id dev, g.server.devices.byId.lookup id = some dev → dev.inFlight.lookup token = none) ∧
      g.server.blockAcks.lookup token = none
  /-- The operation dispatched next takes the place of none of its device. -/
  flights : ∀ addr op queue id dev, g.queue = (addr, op) :: queue →
    g.server.devices.byAddr.lookup addr = some id → g.server.devices.byId.lookup id = some dev →
    dev.inFlight.lookup (tokenOfId op.id) = none
  /-- An acknowledgement that echoes the token of a request ends no other. -/
  answers : ∀ packet choice next x y peer, acking g.server.recv = some packet →
    g.step env (.server (.recv choice)) = some next →
    pending g x = some (tokenArray packet.token, peer) → pending next y ≠ pending g y → y = x

/-- An operation in flight is one of those under way, under its own token. -/
theorem Apart.flying (apart : Apart g) {id : UInt32} {dev : Device} {op : PendingOperation}
    {token : Token} (stored : g.server.devices.byId.lookup id = some dev)
    (flying : dev.inFlight.lookup token = some op) :
    token = tokenOfId op.id ∧ op ∈ held g.server.devices.byId ∧ op.id ∈ opIds g := by
  have member : op ∈ held g.server.devices.byId :=
    List.mem_flatMap.mpr ⟨dev, Table.mem_values.mpr ⟨id, stored⟩, Table.mem_values.mpr ⟨token, flying⟩⟩
  refine ⟨(apart.tidy id dev stored).2 token op flying, member, ?_⟩
  exact List.mem_append_right _ (List.mem_append_left _ (List.mem_map_of_mem member))

theorem Apart.bootstrap_clear (apart : Apart g) {token : Token}
    (booted : Booted g.server.core token) :
    (∀ id dev, g.server.devices.byId.lookup id = some dev → dev.inFlight.lookup token = none) ∧
      g.server.blockAcks.lookup token = none := by
  constructor
  · intro id dev stored
    cases flying : dev.inFlight.lookup token with
    | none => rfl
    | some op =>
      obtain ⟨named, -, member⟩ := apart.flying stored flying
      exact (apart.kinds op.id member (named ▸ booted)).elim
  · cases waiting : g.server.blockAcks.lookup token with
    | none => rfl
    | some channel =>
      obtain ⟨id, member, named⟩ := apart.owned token (by rw [waiting]; rfl)
      have under : id ∈ opIds g := List.mem_append_right _ (List.mem_append_right _ member)
      exact (apart.kinds id under (named ▸ booted)).elim

theorem Apart.next_flight (apart : Apart g) {addr : SocketAddr} {op : PendingOperation}
    {queue : List (SocketAddr × PendingOperation)} {id : UInt32} {dev : Device}
    (waiting : g.queue = (addr, op) :: queue)
    (stored : g.server.devices.byId.lookup id = some dev) :
    dev.inFlight.lookup (tokenOfId op.id) = none := by
  cases flying : dev.inFlight.lookup (tokenOfId op.id) with
  | none => rfl
  | some other =>
    obtain ⟨named, member, -⟩ := apart.flying stored flying
    have distinct := apart.nodup
    rw [opIds, waiting, List.map_cons, List.cons_append] at distinct
    refine ((List.nodup_cons.mp distinct).1 ?_).elim
    have same : op.id = other.id := tokenOfId_injective named
    rw [same]
    exact List.mem_append_right _ (List.mem_append_left _ (List.mem_map_of_mem member))

/-! The four kinds of pending exchanges, by what they have in the maps. -/

theorem write_pending {i : Nat} {token : Token} {peer : SocketAddr}
    (reached : (serverMachine env).Reaches Machine.always g.server)
    (waits : pending g (.write i) = some (token, peer)) :
    ∃ channel step, g.server.boot.writeAcks.lookup token = some channel ∧
      .registered i step token channel ∈ g.server.log := by
  obtain ⟨task, held, waits⟩ := Option.bind_eq_some_iff.mp waits
  obtain ⟨⟨name, channel⟩, awaits, keyed⟩ := Option.bind_eq_some_iff.mp waits
  have stepped := WriteOrder.reached_stepped reached held
  unfold Exchanges.keyed at keyed
  split at keyed
  · rename_i stored
    cases keyed
    unfold awaiting at awaits
    split at awaits
    · rename_i step found sender packet attempt pc
      cases awaits
      exact ⟨channel, step, stored, (stepped.current step _ _ attempt (by rw [pc]; rfl)).1⟩
    · rename_i step found sender packet attempt pc
      cases awaits
      exact ⟨channel, step, stored, (stepped.current step _ _ (attempt + 1) (by rw [pc]; rfl)).1⟩
    · cases awaits
  · cases keyed

theorem session_pending {probe token : Token} {peer : SocketAddr}
    (waits : pending g (.session probe) = some (token, peer)) :
    probe = token ∧ Session g.server.core token := by
  obtain ⟨session, held, recorded⟩ := Option.bind_eq_some_iff.mp waits
  obtain ⟨address, -, pair⟩ := Option.map_eq_some_iff.mp recorded
  cases pair
  exact ⟨rfl, Option.isSome_iff_exists.mpr ⟨session, held⟩⟩

theorem block_pending {i : Nat} {token : Token} {peer : SocketAddr}
    (waits : pending g (.block i) = some (token, peer)) :
    ∃ task, g.blockWrites.get? i = some task ∧ token = tokenOfId task.opId ∧
      (g.server.blockAcks.lookup token).isSome := by
  obtain ⟨task, held, waits⟩ := Option.bind_eq_some_iff.mp waits
  obtain ⟨channel, -, keyed⟩ := Option.bind_eq_some_iff.mp waits
  unfold Exchanges.keyed at keyed
  split at keyed
  · rename_i stored
    cases keyed
    exact ⟨task, held, rfl, Option.isSome_iff_exists.mpr ⟨channel, stored⟩⟩
  · cases keyed

theorem operation_pending {id : UInt32} {probe token : Token} {peer : SocketAddr}
    (waits : pending g (.operation id probe) = some (token, peer)) :
    probe = token ∧ ∃ dev op, g.server.devices.byId.lookup id = some dev ∧
      dev.inFlight.lookup token = some op := by
  obtain ⟨dev, stored, flying⟩ := Option.bind_eq_some_iff.mp waits
  obtain ⟨op, held, pair⟩ := Option.map_eq_some_iff.mp flying
  cases pair
  exact ⟨rfl, dev, op, stored, held⟩

/-- An operation in flight and a block-wise write have different tokens. -/
theorem Apart.flight_not_block (apart : Apart g) {id : UInt32} {dev : Device} {op : PendingOperation}
    {token : Token} {i : Nat} {task : BlockWrite}
    (stored : g.server.devices.byId.lookup id = some dev) (flying : dev.inFlight.lookup token = some op)
    (held : g.blockWrites.get? i = some task) : token ≠ tokenOfId task.opId := by
  intro named
  obtain ⟨own, member, -⟩ := apart.flying stored flying
  have same : op.id = task.opId := tokenOfId_injective (own.symm.trans named)
  have distinct := (List.nodup_append.mp (List.nodup_append.mp apart.nodup).2.1).2.2
  exact distinct op.id (List.mem_map_of_mem member) task.opId
    (List.mem_map_of_mem (List.mem_of_getElem? held)) same

/-- Two operations in flight with one token are one operation in one place. -/
theorem Apart.flight_unique (apart : Apart g) {id id' : UInt32} {dev dev' : Device}
    {op op' : PendingOperation} {token : Token}
    (stored : g.server.devices.byId.lookup id = some dev) (flying : dev.inFlight.lookup token = some op)
    (stored' : g.server.devices.byId.lookup id' = some dev')
    (flying' : dev'.inFlight.lookup token = some op') : id = id' := by
  obtain ⟨named, member, -⟩ := apart.flying stored flying
  obtain ⟨named', member', -⟩ := apart.flying stored' flying'
  have distinct : ((held g.server.devices.byId).map (·.id)).Nodup :=
    (List.nodup_append.mp (List.nodup_append.mp apart.nodup).2.1).1
  have same : op = op' := List.inj_on_of_nodup_map distinct member member'
    (tokenOfId_injective (named.symm.trans named'))
  subst same
  exact congrArg Prod.fst (@place_unique g.server.devices op (id, token) (id', token) apart.tidy
    (List.Nodup.of_map _ distinct) ⟨dev, stored, flying⟩ ⟨dev', stored', flying'⟩)

theorem Apart.block_unique (apart : Apart g) {i j : Nat} {task task' : BlockWrite}
    (held : g.blockWrites.get? i = some task) (held' : g.blockWrites.get? j = some task')
    (same : tokenOfId task.opId = tokenOfId task'.opId) : i = j := by
  have distinct : (g.blockWrites.all.map (·.opId)).Nodup :=
    (List.nodup_append.mp (List.nodup_append.mp apart.nodup).2.1).2.1
  have first : (g.blockWrites.all.map (·.opId))[i]? = some task.opId := by
    rw [List.getElem?_map]
    exact congrArg (Option.map (·.opId)) held
  have second : (g.blockWrites.all.map (·.opId))[j]? = some task.opId := by
    rw [List.getElem?_map, tokenOfId_injective same]
    exact congrArg (Option.map (·.opId)) held'
  obtain ⟨bound, -⟩ := List.getElem?_eq_some_iff.mp first
  exact (List.getElem?_inj bound distinct).mp (first.trans second.symm)

/-- No operation or block-wise write waits under a token of the bootstrap
registry. -/
private theorem Apart.not_operation (apart : Apart g) {token : Token} {x : Exchange}
    {peer : SocketAddr} (booted : Booted g.server.core token) (waits : pending g x = some (token, peer)) :
    (∀ i, x ≠ .block i) ∧ ∀ id probe, x ≠ .operation id probe := by
  obtain ⟨flights, blocks⟩ := apart.bootstrap_clear booted
  constructor
  · rintro i rfl
    obtain ⟨task, -, -, waiting⟩ := block_pending waits
    rw [blocks] at waiting
    cases waiting
  · rintro id probe rfl
    obtain ⟨-, dev, op, stored, flying⟩ := operation_pending waits
    rw [flights id dev stored] at flying
    cases flying

/-- **A token belongs to one pending exchange.** -/
theorem Apart.pending_unique (apart : Apart g)
    (reached : (serverMachine env).Reaches Machine.always g.server) {x y : Exchange} {token : Token}
    {peer peer' : SocketAddr} (first : pending g x = some (token, peer))
    (second : pending g y = some (token, peer')) : x = y := by
  cases x with
  | write i =>
    obtain ⟨channel, step, stored, registered⟩ := write_pending reached first
    have writing : Writing g.server.core token := Or.inl (Option.isSome_iff_exists.mpr ⟨channel, stored⟩)
    obtain ⟨noBlock, noOperation⟩ := apart.not_operation (Or.inr writing) second
    cases y with
    | write j =>
      obtain ⟨channel', step', stored', registered'⟩ := write_pending reached second
      rw [stored] at stored'
      cases stored'
      have owned := (reached_channels reached).owned channel i step token j step' token registered
        registered'
      rw [owned.1]
    | session probe => exact (apart.split token (session_pending second).2 writing).elim
    | block j => exact (noBlock j rfl).elim
    | operation id probe => exact (noOperation id probe rfl).elim
  | session probe =>
    obtain ⟨rfl, session⟩ := session_pending first
    obtain ⟨noBlock, noOperation⟩ := apart.not_operation (Or.inl session) second
    cases y with
    | write j =>
      obtain ⟨channel, step, stored, -⟩ := write_pending reached second
      exact (apart.split probe session (Or.inl (Option.isSome_iff_exists.mpr ⟨channel, stored⟩))).elim
    | session other => rw [(session_pending second).1]
    | block j => exact (noBlock j rfl).elim
    | operation id other => exact (noOperation id other rfl).elim
  | block i =>
    obtain ⟨task, held, named, -⟩ := block_pending first
    cases y with
    | write j =>
      obtain ⟨channel, step, stored, -⟩ := write_pending reached second
      have booted : Booted g.server.core token :=
        Or.inr (Or.inl (Option.isSome_iff_exists.mpr ⟨channel, stored⟩))
      exact ((apart.not_operation booted first).1 i rfl).elim
    | session probe =>
      exact ((apart.not_operation (Or.inl (session_pending second).2) first).1 i rfl).elim
    | block j =>
      obtain ⟨task', held', named', -⟩ := block_pending second
      rw [apart.block_unique held held' (named.symm.trans named')]
    | operation id probe =>
      obtain ⟨-, dev, op, stored, flying⟩ := operation_pending second
      exact (apart.flight_not_block stored flying held named).elim
  | operation id probe =>
    obtain ⟨rfl, dev, op, stored, flying⟩ := operation_pending first
    cases y with
    | write j =>
      obtain ⟨channel, step, found, -⟩ := write_pending reached second
      have booted : Booted g.server.core probe :=
        Or.inr (Or.inl (Option.isSome_iff_exists.mpr ⟨channel, found⟩))
      exact ((apart.not_operation booted first).2 id probe rfl).elim
    | session other =>
      exact ((apart.not_operation (Or.inl (session_pending second).2) first).2 id probe rfl).elim
    | block j =>
      obtain ⟨task, held, named, -⟩ := block_pending second
      exact (apart.flight_not_block stored flying held named).elim
    | operation id' other =>
      obtain ⟨rfl, dev', op', stored', flying'⟩ := operation_pending second
      rw [apart.flight_unique stored flying stored' flying']

/-- **Tokens of different kinds do not collide**, in every run in which each
counter advances fewer than `2 ^ 30` times and the three of the upper half hand
out no value that is still in use. -/
theorem reached_tokens_apart (reached : (Gateway.machine env).Reaches Separate g) :
    TokensApart env g := by
  have apart := reached_apart reached
  refine ⟨fun token booted => ?_, fun addr op queue id dev waiting _ stored => ?_, ?_⟩
  · refine apart.bootstrap_clear ?_
    rcases booted with session | stored
    · exact Or.inl session
    · exact Or.inr (Or.inl stored)
  · exact apart.next_flight waiting stored
  · intro packet choice next x y peer acks ran waits changed
    obtain ⟨peer', ended⟩ := ended_under_token acks ran changed
    exact apart.pending_unique (reached_server reached) ended waits

end Gateway

/-! ## A factory reset and a GET /0/0 -/

/-- The gateway started at some fraction of a second. -/
def startedAt (seed : UInt32) : Gateway :=
  { server := .initial seed (some "coaps://gateway") [] .new 0, trafficClass := 0 }

theorem start_startedAt (seed : UInt32) (below : seed.toNat < 1000000000) :
    (Gateway.machine Peer.env).start (startedAt seed) :=
  ⟨seed, some "coaps://gateway", [], 0, [], 0, 0, below, by simp, by simp, rfl⟩

/-- The factory reset of a mower is in flight when a pump is asked for its
certificate. -/
def resetThenGet : List GatewayAction :=
  Peer.resetInFlight ++ Peer.relay (Peer.post "bs" "pump") stranger 5

/-- The mower's reset is in flight and the pump's session waits under a token. -/
def bothWaiting (token : Token) (g : Gateway) : Bool :=
  (g.server.boot.byToken.lookup token).isSome &&
    (g.server.devices.byId.lookup 1).any fun dev : Device => (dev.inFlight.lookup firstToken).isSome

/-- Started five nanoseconds after a full second, the two have different
tokens. -/
theorem reset_and_get_apart :
    ∃ g, (Gateway.machine Peer.env).exec Separate (startedAt 5) resetThenGet = some g ∧
      TokensApart Peer.env g ∧ bothWaiting (tokenOfId 0x80000005) g = true := by
  obtain ⟨g, ran, reached, seen⟩ := (Gateway.machine Peer.env).exec_reaches Separate (startedAt 5)
    resetThenGet (bothWaiting (tokenOfId 0x80000005)) (start_startedAt 5 (by decide))
    (by decide +kernel)
  exact ⟨g, ran, reached_tokens_apart reached, seen⟩

/-- **Started at a full second, the reset and the GET have one token.** -/
theorem reset_and_get_collide :
    ∃ g, (Gateway.machine Peer.env).Reaches (fun g _ => Few g) g ∧ Few g ∧ ¬ TokensApart Peer.env g := by
  obtain ⟨g, -, reached, seen⟩ := (Gateway.machine Peer.env).exec_reaches (fun g _ => Few g)
    (startedAt 0) resetThenGet (fun g => decide (Few g) && bothWaiting firstToken g)
    (start_startedAt 0 (by decide)) (by decide +kernel)
  obtain ⟨few, waiting⟩ := Bool.and_eq_true_iff.mp seen
  obtain ⟨session, found⟩ := Bool.and_eq_true_iff.mp waiting
  obtain ⟨dev, stored, flying⟩ := (Option.any_eq_true _ _).mp found
  refine ⟨g, reached, of_decide_eq_true few, fun apart => ?_⟩
  rw [(apart.kinds firstToken (Or.inl session)).1 1 dev stored] at flying
  cases flying

end Lwm2mServer.TokenKinds
