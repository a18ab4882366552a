import Lwm2mServer.Server

/-! The map of block acknowledgements. A block-wise write puts a fresh channel
under its token before every send of a block; the receive loop takes it out
again with the acknowledgement that carries the token, and a reset or the
writer itself drops it. -/
namespace Lwm2mServer.BlockAcks
open Library

/-- Everything a step of the server can do to the map and its channels. -/
inductive BlockMove (s : Server) : Action → Server → Prop where
  | same (acks : next.blockAcks = s.blockAcks) (channels : next.blockChannels = s.blockChannels) :
      BlockMove s action next
  /-- An acknowledgement goes to the channel under its token. -/
  | answered (position : s.recv = .ackBlock packet addr)
      (waiting : s.blockAcks.lookup (tokenArray packet.token) = some sender)
      (acks : next.blockAcks = s.blockAcks.erase (tokenArray packet.token))
      (channels : next.blockChannels = s.blockChannels.send sender packet) :
      BlockMove s (.recv choice) next
  | disarmed (token : Token) (acks : next.blockAcks = (s.disarmBlock token).blockAcks)
      (channels : next.blockChannels = (s.disarmBlock token).blockChannels) :
      BlockMove s action next
  | armed (token : Token) (acks : next.blockAcks = s.blockAcks.insert token s.blockChannels.next)
      (channels : next.blockChannels = (s.disarmBlock token).blockChannels.channel.2) :
      BlockMove s (.client (.armBlock token)) next

variable {env : Env} {s next : Server} {action : Action} {choice : Choice}

private theorem recv_move (ran : s.recvStep env choice = some next) :
    BlockMove s (.recv choice) next := by
  cases position : s.recv with
  | ackBlock packet addr =>
    simp only [Server.recvStep, position] at ran
    split at ran
    · rename_i sender waiting
      cases ran
      exact .answered position waiting rfl rfl
    · cases ran
      exact .same rfl rfl
  | rstBlock packet addr =>
    simp only [Server.recvStep, position] at ran
    cases ran
    exact .disarmed (tokenArray packet.token) rfl rfl
  | ackInFlight packet addr | rstInFlight packet addr =>
    simp only [Server.recvStep, position] at ran
    cases ran
    unfold Server.answer
    split <;> exact .same rfl rfl
  | touch | register | drain | findReporter | findVersions | mergeReport =>
    simp only [Server.recvStep, position] at ran
    obtain ⟨result, -, ran⟩ := Option.bind_eq_some_iff.mp ran
    cases ran
    exact .same rfl rfl
  | begin | ackWrite | rstWrite | ackComplete | askIncluded | ackValidate =>
    simp only [Server.recvStep, position] at ran
    split at ran <;> cases ran <;> exact .same rfl rfl
  | acknowledge =>
    simp only [Server.recvStep, position] at ran
    split at ran
    · split at ran <;> cases ran <;> exact .same rfl rfl
    · cases ran
      exact .same rfl rfl
  | idle =>
    simp only [Server.recvStep, position] at ran
    cases ran
  | _ =>
    simp only [Server.recvStep, position] at ran
    cases ran
    exact .same rfl rfl

/-- Dropping a sender hands out no channel. -/
theorem disarm_next (s : Server) (token : Token) :
    (s.disarmBlock token).blockChannels.next = s.blockChannels.next := by
  simp only [Server.disarmBlock]
  split
  · exact Oneshots.resolve_next ..
  · rfl

theorem block_move (ran : s.step env action = some next) : BlockMove s action next := by
  cases action with
  | recv choice => exact recv_move ran
  | receive packet addr =>
    simp only [Server.step] at ran
    split at ran <;> cases ran <;> exact .same rfl rfl
  | phase i choice =>
    obtain ⟨task, -, ran⟩ := Option.bind_eq_some_iff.mp ran
    obtain ⟨outcome, -, ran⟩ := Option.bind_eq_some_iff.mp ran
    cases ran
    exact .same rfl rfl
  | includeDevice id =>
    cases ran
    simp only [Server.includeStep]
    split <;> exact .same rfl rfl
  | exclusion i =>
    obtain ⟨task, -, ran⟩ := Option.bind_eq_some_iff.mp ran
    dsimp only at ran
    split at ran
    · obtain ⟨found, -, ran⟩ := Option.bind_eq_some_iff.mp ran
      split at ran <;> cases ran <;> exact .same rfl rfl
    all_goals cases ran <;> exact .same rfl rfl
  | removal i =>
    obtain ⟨task, -, ran⟩ := Option.bind_eq_some_iff.mp ran
    split at ran <;> cases ran
    exact .same rfl rfl
  | housekeeping =>
    cases ran
    simp only [Server.housekeepingStep]
    split <;> exact .same rfl rfl
  | client call =>
    cases ran
    cases call with
    | armBlock token =>
      refine .armed token ?_ rfl
      simp only [Server.clientStep, Oneshots.channel, disarm_next]
    | disarmBlock token => exact .disarmed token rfl rfl
    | completeInFlight addr token =>
      simp only [Server.clientStep, Server.answer]
      split <;> exact .same rfl rfl
    | _ => exact .same rfl rfl
  | _ =>
    cases ran
    exact .same rfl rfl

/-! ## Channels -/

theorem disarm_lookup (s : Server) (token probe : Token) :
    (s.disarmBlock token).blockAcks.lookup probe =
      if probe = token then none else s.blockAcks.lookup probe := by
  simp only [Server.disarmBlock, Table.lookup_erase_if]

/-- A dropped sender has sent nothing. -/
theorem disarm_cell (s : Server) (token : Token) (channel : Nat) :
    (s.disarmBlock token).blockChannels.cell channel = s.blockChannels.cell channel ∨
      (s.disarmBlock token).blockChannels.cell channel = .closed ∧
        s.blockAcks.lookup token = some channel := by
  simp only [Server.disarmBlock]
  split
  · rename_i sender held
    rcases s.blockChannels.resolve_cell_cases sender .closed channel with same | ⟨rfl, -, closed⟩
    · exact Or.inl same
    · exact Or.inr ⟨closed, held⟩
  · exact Or.inl rfl

/-- Channels are handed out in order, and nothing is sent on one before. -/
structure Channelled (s : Server) : Prop where
  used : ∀ token channel, s.blockAcks.lookup token = some channel → channel < s.blockChannels.next
  fresh : ∀ channel, s.blockChannels.next ≤ channel → s.blockChannels.cell channel = .waiting

theorem channelled_step (channelled : Channelled s) (ran : s.step env action = some next) :
    Channelled next := by
  cases block_move ran with
  | same acks channels =>
    constructor
    · rw [acks, channels]
      exact channelled.used
    · rw [channels]
      exact channelled.fresh
  | @answered packet addr sender _ choice position waiting acks channels =>
    constructor
    · intro token channel held
      rw [acks, Table.lookup_erase_if] at held
      split at held
      · cases held
      · rw [channels, Oneshots.send, Oneshots.resolve_next]
        exact channelled.used token channel held
    · intro channel above
      rw [channels, Oneshots.send, Oneshots.resolve_next] at above
      have below := channelled.used _ _ waiting
      rw [channels, Oneshots.send]
      rcases s.blockChannels.resolve_cell_cases sender (.sent packet) channel with same | ⟨rfl, -, -⟩
      · rw [same]
        exact channelled.fresh channel above
      · omega
  | disarmed token acks channels =>
    constructor
    · intro probe channel held
      rw [acks, disarm_lookup] at held
      split at held
      · cases held
      · rw [channels, disarm_next]
        exact channelled.used probe channel held
    · intro channel above
      rw [channels, disarm_next] at above
      rw [channels]
      rcases disarm_cell s token channel with same | ⟨-, held⟩
      · rw [same]
        exact channelled.fresh channel above
      · have below := channelled.used _ _ held
        omega
  | armed token acks channels =>
    have after : next.blockChannels.next = s.blockChannels.next + 1 := by
      rw [channels, Oneshots.channel, disarm_next]
    constructor
    · intro probe channel held
      rw [acks, Table.lookup_insert_if] at held
      split at held
      · cases held
        omega
      · have below := channelled.used probe channel held
        omega
    · intro channel above
      rw [after] at above
      rw [channels]
      rcases disarm_cell s token channel with same | ⟨-, held⟩
      · exact same.trans (channelled.fresh channel (by omega))
      · have below := channelled.used _ _ held
        omega

theorem channelled_reached {guard : Server → Action → Prop}
    (reached : (serverMachine env).Reaches guard s) : Channelled s := by
  refine reached.invariant Channelled ?_ fun s action next _ channelled _ ran =>
    channelled_step channelled ran
  rintro s ⟨seed, serverUri, included, devices, clock, rfl⟩
  exact ⟨fun token channel held => (by cases held), fun _ _ => rfl⟩

/-- A channel in the map is there under one token, and nothing was sent on it. -/
structure Listening (s : Server) : Prop where
  one : ∀ token other channel, s.blockAcks.lookup token = some channel →
    s.blockAcks.lookup other = some channel → token = other
  waiting : ∀ token channel, s.blockAcks.lookup token = some channel →
    s.blockChannels.cell channel = .waiting

theorem listening_step (channelled : Channelled s) (listening : Listening s)
    (ran : s.step env action = some next) : Listening next := by
  cases block_move ran with
  | same acks channels =>
    constructor
    · rw [acks]
      exact listening.one
    · rw [acks, channels]
      exact listening.waiting
  | @answered packet addr sender _ choice position held acks channels =>
    have kept {token : Token} {channel : Nat} (found : next.blockAcks.lookup token = some channel) :
        token ≠ tokenArray packet.token ∧ s.blockAcks.lookup token = some channel := by
      rw [acks, Table.lookup_erase_if] at found
      split at found
      · cases found
      · rename_i other
        exact ⟨other, found⟩
    constructor
    · intro token other channel first second
      exact listening.one token other channel (kept first).2 (kept second).2
    · intro token channel found
      obtain ⟨other, before⟩ := kept found
      rw [channels, Oneshots.send]
      rcases s.blockChannels.resolve_cell_cases sender (.sent packet) channel with same | ⟨rfl, -, -⟩
      · rw [same]
        exact listening.waiting token channel before
      · exact absurd (listening.one _ _ _ before held) other
  | disarmed token acks channels =>
    have kept {probe : Token} {channel : Nat} (found : next.blockAcks.lookup probe = some channel) :
        probe ≠ token ∧ s.blockAcks.lookup probe = some channel := by
      rw [acks, disarm_lookup] at found
      split at found
      · cases found
      · rename_i other
        exact ⟨other, found⟩
    constructor
    · intro probe other channel first second
      exact listening.one probe other channel (kept first).2 (kept second).2
    · intro probe channel found
      obtain ⟨other, before⟩ := kept found
      rw [channels]
      rcases disarm_cell s token channel with same | ⟨-, held⟩
      · rw [same]
        exact listening.waiting probe channel before
      · exact absurd (listening.one _ _ _ before held) other
  | armed token acks channels =>
    have kept {probe : Token} {channel : Nat} (found : next.blockAcks.lookup probe = some channel) :
        probe = token ∧ channel = s.blockChannels.next ∨
          probe ≠ token ∧ s.blockAcks.lookup probe = some channel := by
      rw [acks, Table.lookup_insert_if] at found
      split at found
      · rename_i same
        cases found
        exact Or.inl ⟨same, rfl⟩
      · rename_i other
        exact Or.inr ⟨other, found⟩
    constructor
    · intro probe other channel first second
      rcases kept first with ⟨rfl, fresh⟩ | ⟨-, before⟩ <;>
        rcases kept second with ⟨rfl, fresh'⟩ | ⟨-, before'⟩
      · rfl
      · have below := channelled.used _ _ before'
        omega
      · have below := channelled.used _ _ before
        omega
      · exact listening.one probe other channel before before'
    · intro probe channel found
      rw [channels]
      change (s.disarmBlock token).blockChannels.cell channel = .waiting
      rcases kept found with ⟨-, rfl⟩ | ⟨other, before⟩
      · rcases disarm_cell s token s.blockChannels.next with same | ⟨-, held⟩
        · exact same.trans (channelled.fresh _ (Nat.le_refl _))
        · exact absurd (channelled.used _ _ held) (Nat.lt_irrefl _)
      · rcases disarm_cell s token channel with same | ⟨-, held⟩
        · exact same.trans (listening.waiting probe channel before)
        · exact absurd (listening.one _ _ _ before held) other

theorem listening_reached {guard : Server → Action → Prop}
    (reached : (serverMachine env).Reaches guard s) : Listening s := by
  refine reached.invariant Listening ?_ fun s action next before listening _ ran =>
    listening_step (channelled_reached before) listening ran
  rintro s ⟨seed, serverUri, included, devices, clock, rfl⟩
  exact ⟨fun _ _ _ held => (by cases held), fun _ _ held => (by cases held)⟩

end Lwm2mServer.BlockAcks
