import Lwm2mServer.PhaseHistory

/-! The channels on which the write phases wait.

`register_write_ack` stores a fresh sender under a token, an ACK or RST with
that token takes it out and fires it, and a phase that gives up drops it. The
invariant ties the three records of a channel together: the table, what the
receiver sees, and the history. It needs no assumption on tokens; a token used
twice only drops the older sender. -/
namespace Lwm2mServer.WriteAcks
open Library

/-- The events that concern a channel. -/
def OfChannel : Event → Bool
  | .registered .. | .answered .. => true
  | _ => false

variable {env : Env} {c next : Core} {action : Action}

/-- A step seen from the channels: one is registered, fired or dropped, or
they are left alone. -/
theorem channel_cases (moved : Transition env c action next) :
    (next.boot.writeAcks = c.boot.writeAcks ∧ next.boot.oneshots = c.boot.oneshots ∧
      ∃ events, next.log = events ++ c.log ∧ ∀ event ∈ events, OfChannel event = false) ∨
    (∃ i step token, next.boot.writeAcks = c.boot.writeAcks.insert token c.boot.oneshots.next ∧
      next.boot.oneshots = (c.boot.dropWriteAck token).channel.2 ∧
      next.log = .registered i step token c.boot.oneshots.next :: c.log) ∨
    (∃ token channel success code, c.boot.writeAcks.lookup token = some channel ∧
      next.boot.writeAcks = c.boot.writeAcks.erase token ∧
      next.boot.oneshots = c.boot.oneshots.send channel success ∧
      next.log = .answered channel token success code :: c.log ∧
      (success = true → ∃ choice packet addr, action = .recv choice ∧
        c.recv = .ackWrite packet addr ∧ token = tokenArray packet.token ∧ code = packet.code)) ∨
    (∃ token, next.boot.writeAcks = c.boot.writeAcks.erase token ∧
      next.boot.oneshots = c.boot.dropWriteAck token ∧
      ∃ events, next.log = events ++ c.log ∧ ∀ event ∈ events, OfChannel event = false) := by
  cases moved with
  | answer position held =>
    refine Or.inr (Or.inr (Or.inl ⟨_, _, _, _, held, rfl, rfl, rfl, ?_⟩))
    rintro rfl
    exact ⟨_, _, _, rfl, position, rfl, rfl⟩
  | phase held move =>
    cases move with
    | register => exact Or.inr (Or.inl ⟨_, _, _, rfl, rfl, rfl⟩)
    | cancel =>
      exact Or.inr (Or.inr (Or.inr ⟨_, rfl, rfl, [_], rfl, List.forall_mem_singleton.mpr rfl⟩))
    | _ => exact Or.inl ⟨rfl, rfl, _, rfl, by simp [OfChannel]⟩
  | quiet _ minor =>
    exact Or.inl ⟨rfl, rfl, _, rfl, minor_events minor fun _ _ => rfl⟩
  | findApproved | missCert | reject | expire =>
    exact Or.inl ⟨rfl, rfl, [], rfl, fun _ member => by cases member⟩
  | _ => exact Or.inl ⟨rfl, rfl, [_], rfl, List.forall_mem_singleton.mpr rfl⟩

/-- Dropping the sender under a token closes its channel and no other. -/
theorem dropWriteAck_cell (boot : BootstrapRegistry) (token : Token) (probe : Nat) :
    (boot.dropWriteAck token).cell probe = boot.oneshots.cell probe ∨
      (boot.writeAcks.lookup token = some probe ∧
        (boot.dropWriteAck token).cell probe = .closed) := by
  unfold BootstrapRegistry.dropWriteAck
  cases held : boot.writeAcks.lookup token with
  | none => exact Or.inl rfl
  | some sender =>
    rcases boot.oneshots.resolve_cell_cases sender .closed probe with same | ⟨rfl, -, closed⟩
    · exact Or.inl same
    · exact Or.inr ⟨rfl, closed⟩

/-- The table, the receivers and the history agree on every channel. -/
structure Channels (c : Core) : Prop where
  issued : ∀ i step token channel, .registered i step token channel ∈ c.log →
    channel < c.boot.oneshots.next
  owned : ∀ channel i step token i' step' token', .registered i step token channel ∈ c.log →
    .registered i' step' token' channel ∈ c.log → i = i' ∧ step = step' ∧ token = token'
  silent : ∀ channel, c.boot.oneshots.next ≤ channel → c.boot.oneshots.cell channel = .waiting
  stored : ∀ token channel, c.boot.writeAcks.lookup token = some channel →
    (∃ i step, .registered i step token channel ∈ c.log) ∧
      c.boot.oneshots.cell channel = .waiting ∧
      ∀ token' success code, .answered channel token' success code ∉ c.log
  fired : ∀ channel token success code, .answered channel token success code ∈ c.log →
    (∃ i step, .registered i step token channel ∈ c.log) ∧
      c.boot.oneshots.cell channel = .sent success
  heard : ∀ channel success, c.boot.oneshots.cell channel = .sent success →
    ∃ token code, .answered channel token success code ∈ c.log

/-- A stored channel is stored under one token. -/
theorem Channels.stored_unique (channels : Channels c) {token token' : Token} {channel : Nat}
    (first : c.boot.writeAcks.lookup token = some channel)
    (second : c.boot.writeAcks.lookup token' = some channel) : token = token' := by
  obtain ⟨⟨i, step, registered⟩, -⟩ := channels.stored token channel first
  obtain ⟨⟨i', step', registered'⟩, -⟩ := channels.stored token' channel second
  exact (channels.owned channel i step token i' step' token' registered registered').2.2

theorem channels_initial (initial : c.Initial) : Channels c := by
  obtain ⟨seed, serverUri, included, rfl⟩ := initial
  constructor
  · intro i step token channel member
    cases List.mem_singleton.mp member
  · intro channel i step token i' step' token' member
    cases List.mem_singleton.mp member
  · intro channel _
    rfl
  · intro token channel held
    cases held
  · intro channel token success code member
    cases List.mem_singleton.mp member
  · intro channel success held
    cases held

/-- Steps that leave the channels alone. -/
private theorem channels_same (channels : Channels c) (events : List Event)
    (writeAcks : next.boot.writeAcks = c.boot.writeAcks)
    (oneshots : next.boot.oneshots = c.boot.oneshots) (log : next.log = events ++ c.log)
    (plain : ∀ event ∈ events, OfChannel event = false) :
    Channels next := by
  have old {event : Event} (kind : OfChannel event = true) : event ∈ next.log ↔ event ∈ c.log := by
    rw [log, List.mem_append]
    refine ⟨fun member => member.resolve_left fun added => ?_, Or.inr⟩
    rw [plain event added] at kind
    cases kind
  constructor
  · intro i step token channel member
    rw [oneshots]
    exact channels.issued i step token channel ((old rfl).mp member)
  · intro channel i step token i' step' token' first second
    exact channels.owned channel i step token i' step' token' ((old rfl).mp first) ((old rfl).mp second)
  · intro channel above
    rw [oneshots] at above ⊢
    exact channels.silent channel above
  · intro token channel held
    rw [writeAcks] at held
    obtain ⟨⟨i, step, registered⟩, waiting, unanswered⟩ := channels.stored token channel held
    refine ⟨⟨i, step, (old rfl).mpr registered⟩, by rw [oneshots]; exact waiting, ?_⟩
    exact fun token' success code member => unanswered token' success code ((old rfl).mp member)
  · intro channel token success code member
    obtain ⟨⟨i, step, registered⟩, sent⟩ :=
      channels.fired channel token success code ((old rfl).mp member)
    exact ⟨⟨i, step, (old rfl).mpr registered⟩, by rw [oneshots]; exact sent⟩
  · intro channel success held
    rw [oneshots] at held
    obtain ⟨token, code, member⟩ := channels.heard channel success held
    exact ⟨token, code, (old rfl).mpr member⟩

/-- A channel is dropped: what was said on any channel stays. -/
private theorem channels_dropped (channels : Channels c) (token : Token) :
    Channels { c with boot := { c.boot with
      writeAcks := c.boot.writeAcks.erase token
      oneshots := c.boot.dropWriteAck token } } := by
  constructor
  · intro i step token' channel member
    rw [c.boot.dropWriteAck_next]
    exact channels.issued i step token' channel member
  · exact channels.owned
  · intro channel above
    rw [c.boot.dropWriteAck_next] at above
    rcases dropWriteAck_cell c.boot token channel with same | ⟨held, -⟩
    · exact same.trans (channels.silent channel above)
    · obtain ⟨⟨i, step, registered⟩, -⟩ := channels.stored token channel held
      have below := channels.issued i step token channel registered
      omega
  · intro token' channel held
    rw [Table.lookup_erase_if] at held
    split at held
    · cases held
    · rename_i different
      obtain ⟨registered, waiting, unanswered⟩ := channels.stored token' channel held
      refine ⟨registered, ?_, unanswered⟩
      rcases dropWriteAck_cell c.boot token channel with same | ⟨dropped, -⟩
      · exact same.trans waiting
      · exact absurd (channels.stored_unique held dropped) different
  · intro channel token' success code member
    obtain ⟨registered, sent⟩ := channels.fired channel token' success code member
    refine ⟨registered, ?_⟩
    rcases dropWriteAck_cell c.boot token channel with same | ⟨dropped, -⟩
    · exact same.trans sent
    · exact absurd member ((channels.stored token channel dropped).2.2 token' success code)
  · intro channel success held
    rcases dropWriteAck_cell c.boot token channel with same | ⟨-, closed⟩
    · exact channels.heard channel success (same.symm.trans held)
    · cases closed.symm.trans held

/-- A fresh channel is registered. -/
private theorem channels_registered (channels : Channels c) (i : Nat) (step : WriteStep)
    (token : Token) :
    Channels { c with
      boot := { c.boot with
        writeAcks := c.boot.writeAcks.insert token c.boot.oneshots.next
        oneshots := c.boot.oneshots.channel.2 }
      log := .registered i step token c.boot.oneshots.next :: c.log } := by
  have fresh {i' : Nat} {step' : WriteStep} {token' : Token} :
      .registered i' step' token' c.boot.oneshots.next ∉ c.log := fun member =>
    Nat.lt_irrefl _ (channels.issued i' step' token' _ member)
  constructor
  · intro i' step' token' channel member
    change channel < c.boot.oneshots.next + 1
    rcases List.mem_cons.mp member with same | old
    · cases same
      exact Nat.lt_succ_self _
    · exact Nat.lt_succ_of_lt (channels.issued i' step' token' channel old)
  · intro channel i₁ step₁ token₁ i₂ step₂ token₂ first second
    rcases List.mem_cons.mp first with same | old
    · cases same
      rcases List.mem_cons.mp second with same | old
      · cases same
        exact ⟨rfl, rfl, rfl⟩
      · exact absurd old fresh
    · rcases List.mem_cons.mp second with same | old'
      · cases same
        exact absurd old fresh
      · exact channels.owned channel i₁ step₁ token₁ i₂ step₂ token₂ old old'
  · intro channel above
    exact channels.silent channel (Nat.le_of_succ_le above)
  · intro token' channel held
    rw [Table.lookup_insert_if] at held
    split at held
    · rename_i same
      cases held
      subst same
      refine ⟨⟨i, step, List.mem_cons_self⟩, channels.silent _ (Nat.le_refl _), ?_⟩
      intro token'' success code member
      have old := (List.mem_cons.mp member).resolve_left nofun
      obtain ⟨⟨i', step', registered⟩, -⟩ := channels.fired _ _ _ _ old
      exact fresh registered
    · obtain ⟨⟨i', step', registered⟩, waiting, unanswered⟩ := channels.stored token' channel held
      refine ⟨⟨i', step', List.mem_cons_of_mem _ registered⟩, waiting, ?_⟩
      intro token'' success code member
      exact unanswered token'' success code ((List.mem_cons.mp member).resolve_left nofun)
  · intro channel token' success code member
    have old := (List.mem_cons.mp member).resolve_left nofun
    obtain ⟨⟨i', step', registered⟩, sent⟩ := channels.fired channel token' success code old
    exact ⟨⟨i', step', List.mem_cons_of_mem _ registered⟩, sent⟩
  · intro channel success held
    obtain ⟨token', code, member⟩ := channels.heard channel success held
    exact ⟨token', code, List.mem_cons_of_mem _ member⟩

/-- A stored channel is fired. -/
private theorem channels_fired (channels : Channels c) {token : Token} {channel : Nat} {success : Bool}
    {code : MessageClass} (held : c.boot.writeAcks.lookup token = some channel) :
    Channels { c with
      boot := { c.boot with
        writeAcks := c.boot.writeAcks.erase token
        oneshots := c.boot.oneshots.send channel success }
      log := .answered channel token success code :: c.log } := by
  obtain ⟨⟨i, step, registered⟩, waiting, unanswered⟩ := channels.stored token channel held
  have cell (probe : Nat) : (c.boot.oneshots.send channel success).cell probe =
      if probe = channel then .sent success else c.boot.oneshots.cell probe :=
    c.boot.oneshots.resolve_cell_waiting waiting (.sent success) probe
  have count : (c.boot.oneshots.send channel success).next = c.boot.oneshots.next :=
    c.boot.oneshots.resolve_next channel (.sent success)
  constructor
  · intro i' step' token' other member
    rw [count]
    exact channels.issued i' step' token' other ((List.mem_cons.mp member).resolve_left nofun)
  · intro other i₁ step₁ token₁ i₂ step₂ token₂ first second
    exact channels.owned other i₁ step₁ token₁ i₂ step₂ token₂
      ((List.mem_cons.mp first).resolve_left nofun) ((List.mem_cons.mp second).resolve_left nofun)
  · intro other above
    rw [count] at above
    rw [cell, if_neg]
    · exact channels.silent other above
    · have below := channels.issued i step token channel registered
      omega
  · intro token' other found
    rw [Table.lookup_erase_if] at found
    split at found
    · cases found
    · rename_i different
      obtain ⟨⟨i', step', registered'⟩, waiting', unanswered'⟩ := channels.stored token' other found
      have apart : other ≠ channel := by
        rintro rfl
        exact different (channels.stored_unique found held)
      refine ⟨⟨i', step', List.mem_cons_of_mem _ registered'⟩, ?_, ?_⟩
      · rw [cell, if_neg apart]
        exact waiting'
      · intro token'' success' code' member
        rcases List.mem_cons.mp member with same | old
        · cases same
          exact apart rfl
        · exact unanswered' token'' success' code' old
  · intro other token' success' code' member
    rcases List.mem_cons.mp member with same | old
    · cases same
      exact ⟨⟨i, step, List.mem_cons_of_mem _ registered⟩, by rw [cell, if_pos rfl]⟩
    · obtain ⟨⟨i', step', registered'⟩, sent⟩ := channels.fired other token' success' code' old
      refine ⟨⟨i', step', List.mem_cons_of_mem _ registered'⟩, ?_⟩
      rw [cell, if_neg]
      · exact sent
      · rintro rfl
        exact unanswered token' success' code' old
  · intro other success' found
    rw [cell] at found
    split at found
    · rename_i same
      cases found
      subst same
      exact ⟨token, code, List.mem_cons_self⟩
    · obtain ⟨token', code', member⟩ := channels.heard other success' found
      exact ⟨token', code', List.mem_cons_of_mem _ member⟩

theorem channels_step (channels : Channels c) (moved : Transition env c action next) :
    Channels next := by
  rcases channel_cases moved with ⟨writeAcks, oneshots, events, log, plain⟩ |
    ⟨i, step, token, writeAcks, oneshots, log⟩ |
    ⟨token, channel, success, code, held, writeAcks, oneshots, log, -⟩ |
    ⟨token, writeAcks, oneshots, events, log, plain⟩
  · exact channels_same channels events writeAcks oneshots log plain
  · -- registering drops whatever sender the token had
    have registered := channels_registered (channels_dropped channels token) i step token
    refine channels_same registered [] ?_ ?_ ?_ (fun _ member => by cases member)
    · rw [writeAcks, c.boot.dropWriteAck_next, Table.insert_erase]
    · rw [oneshots]
    · rw [log, c.boot.dropWriteAck_next]
      rfl
  · exact channels_same (channels_fired channels held) [] writeAcks oneshots log
      (fun _ member => by cases member)
  · exact channels_same (channels_dropped channels token) events writeAcks oneshots log plain

theorem reached_channels {s : Server} (reached : (serverMachine env).Reaches Machine.always s) :
    Channels s.core :=
  core_invariant Machine.always Channels reached (fun _ => channels_initial)
    fun _ _ _ channels _ moved => channels_step channels moved

/-- A channel is answered at most once. -/
def AnsweredOnce (event : Event) (earlier : List Event) : Prop :=
  ∀ channel token success code, event = .answered channel token success code →
    ∀ token' success' code', .answered channel token' success' code' ∉ earlier

theorem reached_answeredOnce {s : Server} (reached : (serverMachine env).Reaches Machine.always s) :
    EveryEvent AnsweredOnce s.log := by
  refine history_invariant reached AnsweredOnce (fun _ => nofun) ?_
  intro s action next before _ once moved
  have quiet {events : List Event} (plain : ∀ event ∈ events, OfChannel event = false) :
      EveryEvent AnsweredOnce (events ++ s.core.log) := by
    refine once.append fun event member earlier channel token success code same => ?_
    subst same
    cases plain _ member
  rcases channel_cases moved with ⟨-, -, events, log, plain⟩ | ⟨i, step, token, -, -, log⟩ |
    ⟨token, channel, success, code, held, -, -, log, -⟩ | ⟨token, -, -, events, log, plain⟩
  · rw [log]
    exact quiet plain
  · rw [log]
    exact ⟨nofun, once⟩
  · rw [log]
    refine ⟨fun channel' token' success' code' same => ?_, once⟩
    cases same
    exact ((reached_channels before).stored token channel held).2.2
  · rw [log]
    exact quiet plain

end Lwm2mServer.WriteAcks
