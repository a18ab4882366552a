import Lwm2mServer.WriteOrder

/-! The tokens of the write phases, and with them the whole account of a
phase's five steps.

An acknowledgement is matched by its token alone, over all phases at once.
While the counter of `alloc_inner` has not gone round, a token belongs to one
step of one phase, so that whatever is duplicated, delayed or made up, no
acknowledgement completes a step but its own. -/
namespace Lwm2mServer.WriteTokens
open Library WriteAcks WriteOrder

/-- The token an event hands out. -/
def allocatedToken : Event → Option Token
  | .allocated token => some token
  | _ => none

/-- The tokens in the order `alloc_inner` makes them, from the start-up value
of the counter on. -/
def tokenAt (first : UInt32) (n : Nat) : Token := tokenOfId (first + UInt32.ofNat n)

theorem tokenAt_distinct (first : UInt32) (m n : Nat) (below : m < 2 ^ 32) (below' : n < 2 ^ 32)
    (same : tokenAt first m = tokenAt first n) : m = n := by
  have equal := congrArg UInt32.toNat (tokenOfId_injective same)
  simp only [UInt32.toNat_add, UInt32.toNat_ofNat'] at equal
  have bound := first.toNat_lt
  omega

/-- The events that hand out or use a token. -/
def OfToken : Event → Bool
  | .allocated _ | .registered .. => true
  | _ => false

variable {env : Env} {c next : Core} {action : Action}

/-- The phase is about to register a channel under the token. -/
def Holds (c : Core) (i : Nat) (token : Token) : Prop :=
  ∃ task step packet, c.phases.get? i = some task ∧ task.pc = .register step token packet

/-- A phase that holds a token after a step held it before, or has just been
given it. -/
theorem holds_update {i j : Nat} {task : WritePhase} {pc : PhasePc} {token : Token}
    (held : c.phases.get? i = some task)
    (holds : Holds { c with phases := c.phases.update i { task with pc } } j token) :
    (j ≠ i ∧ Holds c j token) ∨ (j = i ∧ ∃ step packet, pc = .register step token packet) := by
  obtain ⟨moved, step, packet, found, at_⟩ := holds
  rw [Tasks.get?_update _ held] at found
  split at found
  · rename_i same
    cases found
    exact Or.inr ⟨same, step, packet, at_⟩
  · rename_i different
    exact Or.inl ⟨different, moved, step, packet, found, at_⟩

/-- A step seen from the tokens: one is allocated, one is used, or neither. -/
theorem token_cases (moved : Transition env c action next) :
    (next.boot.tokenCounter = c.boot.tokenCounter ∧ (∀ j token, Holds next j token → Holds c j token) ∧
      ∃ events, next.log = events ++ c.log ∧ ∀ event ∈ events, OfToken event = false) ∨
    (∃ i, next.boot.tokenCounter = c.boot.tokenCounter + 1 ∧
      (∀ j token, Holds next j token → (j ≠ i ∧ Holds c j token) ∨
        (j = i ∧ token = tokenOfId c.boot.tokenCounter)) ∧
      ∃ events, next.log = events ++ .allocated (tokenOfId c.boot.tokenCounter) :: c.log ∧
        ∀ event ∈ events, OfToken event = false) ∨
    (∃ i step token channel, next.boot.tokenCounter = c.boot.tokenCounter ∧ Holds c i token ∧
      (∀ j token', Holds next j token' → j ≠ i ∧ Holds c j token') ∧
      next.log = .registered i step token channel :: c.log) := by
  have same : ∀ j token, Holds c j token → Holds c j token := fun _ _ holds => holds
  cases moved with
  | quiet _ minor =>
    exact Or.inl ⟨rfl, same, _, rfl, minor_events minor fun _ _ => rfl⟩
  | begin =>
    -- the receive loop allocates; no phase has the number of the next one
    refine Or.inr (Or.inl ⟨c.phases.count, rfl, fun j token holds => Or.inl ⟨?_, holds⟩, [], rfl, ?_⟩)
    · rintro rfl
      obtain ⟨task, step, packet, found, -⟩ := holds
      cases (Tasks.get?_count c.phases).symm.trans found
    · simp
  | startPhase =>
    refine Or.inl ⟨rfl, ?_, [_], rfl, by simp [OfToken]⟩
    rintro j token ⟨task, step, packet, found, pc⟩
    rw [Tasks.get?_spawn] at found
    split at found
    · cases found
      cases pc
    · exact ⟨task, step, packet, found, pc⟩
  | @phase i task outcome choice held move =>
    cases move with
    | alloc pc =>
      refine Or.inr (Or.inl ⟨i, rfl, fun j token holds => ?_, [], rfl, by simp⟩)
      rcases holds_update held holds with old | ⟨own, step, packet, at_⟩
      · exact Or.inl old
      · cases at_
        exact Or.inr ⟨own, rfl⟩
    | allocFailed pc =>
      refine Or.inr (Or.inl ⟨i, rfl, fun j token holds => ?_, [_], rfl, by simp [OfToken]⟩)
      rcases holds_update held holds with old | ⟨-, step, packet, at_⟩
      · exact Or.inl old
      · cases at_
    | @register step token packet pc =>
      refine Or.inr (Or.inr ⟨i, step, token, _, rfl, ⟨task, step, packet, held, pc⟩, ?_, rfl⟩)
      intro j token' holds
      rcases holds_update held holds with old | ⟨-, step, packet, at_⟩
      · exact old
      · cases at_
    | acknowledged _ _ _ goes =>
      refine Or.inl ⟨rfl, fun j token holds => ?_, _, rfl, by simp⟩
      rcases holds_update held holds with ⟨-, old⟩ | ⟨-, step, packet, at_⟩
      · exact old
      · rcases goes with rfl | ⟨-, rfl⟩ <;> cases at_
    | @release success =>
      refine Or.inl ⟨rfl, fun j token holds => ?_, _, rfl, by simp⟩
      rcases holds_update held holds with ⟨-, old⟩ | ⟨-, step, packet, at_⟩
      · exact old
      · cases success <;> cases at_
    | _ =>
      refine Or.inl ⟨rfl, fun j token holds => ?_, _, rfl, by simp [OfToken]⟩
      rcases holds_update held holds with ⟨-, old⟩ | ⟨-, step, packet, at_⟩
      · exact old
      · cases at_
  | findApproved | missCert | reject | expire => exact Or.inl ⟨rfl, same, [], rfl, by simp⟩
  | _ => exact Or.inl ⟨rfl, same, [_], rfl, by simp [OfToken]⟩

/-- Tokens come from the counter, and a channel is registered under a token
that was allocated. -/
structure Tokens (first : UInt32) (c : Core) : Prop where
  counter : c.boot.tokenCounter = first + UInt32.ofNat (issues allocatedToken c.log)
  numbered : Numbered allocatedToken (tokenAt first) c.log
  held : ∀ i token, Holds c i token → .allocated token ∈ c.log
  used : ∀ i step token channel, .registered i step token channel ∈ c.log → .allocated token ∈ c.log

/-- While the counter has not gone round, a token serves one step. -/
structure TokensDiffer (c : Core) : Prop where
  unused : ∀ i token, Holds c i token → ∀ j step channel, .registered j step token channel ∉ c.log
  alone : ∀ i j token, Holds c i token → Holds c j token → i = j
  distinct : ∀ token i step channel i' step' channel', .registered i step token channel ∈ c.log →
    .registered i' step' token channel' ∈ c.log → i' = i ∧ step' = step ∧ channel' = channel

private theorem not_allocated {events : List Event} (plain : ∀ event ∈ events, OfToken event = false) :
    ∀ event ∈ events, allocatedToken event = none := by
  intro event member
  have other := plain event member
  cases event <;> first | rfl | cases other

theorem tokens_initial (initial : c.Initial) :
    Tokens c.boot.tokenCounter c ∧ TokensDiffer c := by
  obtain ⟨seed, serverUri, included, rfl⟩ := initial
  have free (i : Nat) (token : Token) :
      ¬ Holds ⟨(BootstrapRegistry.new seed serverUri).loadIncluded included, .idle, {},
        [.loaded included]⟩ i token := by
    rintro ⟨task, step, packet, found, -⟩
    cases (Tasks.get?_empty i).symm.trans found
  have unregistered {i : Nat} {step : WriteStep} {token : Token} {channel : Nat} :
      .registered i step token channel ∉ [Event.loaded included] := by
    intro member
    cases List.mem_singleton.mp member
  refine ⟨⟨(UInt32.add_zero _).symm, ⟨nofun, trivial⟩, ?_, ?_⟩, ⟨?_, ?_, ?_⟩⟩
  · exact fun i token holds => absurd holds (free i token)
  · exact fun i step token channel member => absurd member unregistered
  · exact fun i token holds => absurd holds (free i token)
  · exact fun i j token holds => absurd holds (free i token)
  · exact fun token i step channel i' step' channel' member => absurd member unregistered

theorem tokens_step {first : UInt32} (tokens : Tokens first c) (moved : Transition env c action next) :
    Tokens first next := by
  rcases token_cases moved with ⟨counter, holds, events, log, plain⟩ |
    ⟨i, counter, holds, events, log, plain⟩ | ⟨i, step, token, channel, counter, held, holds, log⟩
  · have none := not_allocated plain
    constructor
    · rw [counter, log, issues_append_none none]
      exact tokens.counter
    · rw [log]
      exact tokens.numbered.append_none none
    · intro j token held
      rw [log]
      exact List.mem_append_right _ (tokens.held j token (holds j token held))
    · intro j step token channel member
      rw [log] at member ⊢
      rcases List.mem_append.mp member with added | old
      · cases plain _ added
      · exact List.mem_append_right _ (tokens.used j step token channel old)
  · have none := not_allocated plain
    have one : allocatedToken (.allocated (tokenOfId c.boot.tokenCounter)) =
        some (tokenOfId c.boot.tokenCounter) := rfl
    constructor
    · rw [counter, log, issues_append_none none, issues_cons_some one, tokens.counter]
      simp only [UInt32.ofNat_add, UInt32.add_assoc]
      rfl
    · rw [log]
      refine Numbered.append_none ⟨fun k held => ?_, tokens.numbered⟩ none
      cases held
      rw [tokenAt, ← tokens.counter]
    · intro j token held
      rw [log]
      rcases holds j token held with ⟨-, old⟩ | ⟨-, rfl⟩
      · exact List.mem_append_right _ (List.mem_cons_of_mem _ (tokens.held j token old))
      · exact List.mem_append_right _ List.mem_cons_self
    · intro j step token channel member
      rw [log] at member ⊢
      rcases List.mem_append.mp member with added | old
      · cases plain _ added
      · have old := (List.mem_cons.mp old).resolve_left nofun
        exact List.mem_append_right _ (List.mem_cons_of_mem _ (tokens.used j step token channel old))
  · constructor
    · rw [counter, log, issues_cons_none rfl]
      exact tokens.counter
    · rw [log]
      exact ⟨nofun, tokens.numbered⟩
    · intro j token' held'
      rw [log]
      exact List.mem_cons_of_mem _ (tokens.held j token' (holds j token' held').2)
    · intro j step' token' channel' member
      rw [log] at member ⊢
      rcases List.mem_cons.mp member with same | old
      · cases same
        exact List.mem_cons_of_mem _ (tokens.held i token held)
      · exact List.mem_cons_of_mem _ (tokens.used j step' token' channel' old)

theorem tokensDiffer_step {first : UInt32} (tokens : Tokens first c) (differ : TokensDiffer c)
    (few : issues allocatedToken c.log < 2 ^ 32) (moved : Transition env c action next) :
    TokensDiffer next := by
  rcases token_cases moved with ⟨-, holds, events, log, plain⟩ | ⟨i, -, holds, events, log, plain⟩ |
    ⟨i, step, token, channel, -, held, holds, log⟩
  · have old {j : Nat} {step : WriteStep} {token : Token} {channel : Nat}
        (member : .registered j step token channel ∈ next.log) :
        .registered j step token channel ∈ c.log := by
      rw [log] at member
      exact (List.mem_append.mp member).resolve_left fun added => by cases plain _ added
    constructor
    · exact fun j token held k step channel member =>
        differ.unused j token (holds j token held) k step channel (old member)
    · exact fun j k token held held' =>
        differ.alone j k token (holds j token held) (holds k token held')
    · exact fun token j step channel k step' channel' first second =>
        differ.distinct token j step channel k step' channel' (old first) (old second)
  · have old {j : Nat} {step : WriteStep} {token : Token} {channel : Nat}
        (member : .registered j step token channel ∈ next.log) :
        .registered j step token channel ∈ c.log := by
      rw [log] at member
      have member := (List.mem_append.mp member).resolve_left fun added => by cases plain _ added
      exact (List.mem_cons.mp member).resolve_left nofun
    -- the new token is none of those handed out before
    have fresh {token : Token} (member : .allocated token ∈ c.log) :
        token ≠ tokenOfId c.boot.tokenCounter := by
      rw [tokens.counter]
      exact Numbered.fresh (tokenAt_distinct first) tokens.numbered few member rfl
    constructor
    · intro j token held k step channel member
      rcases holds j token held with ⟨-, before⟩ | ⟨-, rfl⟩
      · exact differ.unused j token before k step channel (old member)
      · exact fresh (tokens.used k step _ channel (old member)) rfl
    · intro j k token held held'
      rcases holds j token held with ⟨-, before⟩ | ⟨own, rfl⟩
      · rcases holds k token held' with ⟨-, before'⟩ | ⟨-, rfl⟩
        · exact differ.alone j k token before before'
        · exact absurd rfl (fresh (tokens.held j _ before))
      · rcases holds k _ held' with ⟨-, before'⟩ | ⟨own', -⟩
        · exact absurd rfl (fresh (tokens.held k _ before'))
        · rw [own, own']
    · exact fun token j step channel k step' channel' first second =>
        differ.distinct token j step channel k step' channel' (old first) (old second)
  · constructor
    · intro j token' held' k step' channel' member
      obtain ⟨apart, before⟩ := holds j token' held'
      rw [log] at member
      rcases List.mem_cons.mp member with same | old
      · cases same
        exact apart (differ.alone j i token before held)
      · exact differ.unused j token' before k step' channel' old
    · intro j k token' held₁ held₂
      exact differ.alone j k token' (holds j token' held₁).2 (holds k token' held₂).2
    · intro token' j step₁ channel₁ k step₂ channel₂ first second
      rw [log] at first second
      rcases List.mem_cons.mp first with same | old
      · cases same
        rcases List.mem_cons.mp second with same | old
        · cases same
          exact ⟨rfl, rfl, rfl⟩
        · exact absurd old (differ.unused i token held k step₂ channel₂)
      · rcases List.mem_cons.mp second with same | old'
        · cases same
          exact absurd old (differ.unused i token held j step₁ channel₁)
        · exact differ.distinct token' j step₁ channel₁ k step₂ channel₂ old old'

/-- While fewer than `2 ^ 32` tokens were handed out, none serves two steps. -/
theorem reached_tokensDiffer {s : Server} (reached : (serverMachine env).Reaches Machine.always s)
    (few : issues allocatedToken s.log < 2 ^ 32) : TokensDiffer s.core := by
  have all : ∃ first, Tokens first s.core ∧
      (issues allocatedToken s.core.log < 2 ^ 32 → TokensDiffer s.core) := by
    refine core_invariant Machine.always (fun c => ∃ first, Tokens first c ∧
      (issues allocatedToken c.log < 2 ^ 32 → TokensDiffer c)) reached ?_ ?_
    · intro c initial
      obtain ⟨tokens, differ⟩ := tokens_initial initial
      exact ⟨_, tokens, fun _ => differ⟩
    · rintro c action next ⟨first, tokens, differ⟩ _ moved
      refine ⟨first, tokens_step tokens moved, fun few => ?_⟩
      obtain ⟨events, log⟩ := moved.log_grows
      have before : issues allocatedToken c.log < 2 ^ 32 := by
        rw [log] at few
        exact Nat.lt_of_le_of_lt (issues_le_append events) few
      exact tokensDiffer_step tokens (differ before) before moved
  obtain ⟨first, -, differ⟩ := all
  exact differ few

/-! ## The whole account -/

/-- The five steps of every write phase as a history shows them. -/
structure Sequenced (log : List Event) : Prop where
  /-- Sends, acknowledgements and the return of a phase come in its order. -/
  order : EveryEvent InOrder log
  /-- A request goes out once and is retransmitted a bounded number of times. -/
  bounded : ∀ i step, sends i step log ≤ maxRetransmit + 1
  /-- A second answer to a step has no effect, -/
  once : EveryEvent AnsweredOnce log
  /-- and an answer takes effect for the one step that its token was allocated
  for. -/
  own : ∀ channel token success code, .answered channel token success code ∈ log →
    ∃ i step, .registered i step token channel ∈ log ∧
      ∀ i' step' channel', .registered i' step' token channel' ∈ log →
        i' = i ∧ step' = step ∧ channel' = channel

/-- **The write phases keep their order**, in every run in which fewer than
`2 ^ 32` tokens are allocated: whatever acknowledgements and resets arrive for
whatever tokens, and however many phases are under way. -/
theorem write_steps_sequenced {s : Server} (reached : (serverMachine env).Reaches Machine.always s)
    (few : issues allocatedToken s.log < 2 ^ 32) : Sequenced s.log where
  order := reached_inOrder reached
  bounded i step := by
    cases held : s.phases.get? i with
    | some task => exact (reached_stepped reached held).bounded step
    | none =>
      -- no phase of that number was spawned, so nothing was sent for it
      rw [sends_eq_zero]
      · exact Nat.zero_le _
      · intro token member
        obtain ⟨task, found⟩ := reached_task reached member rfl
        cases held.symm.trans found
  once := reached_answeredOnce reached
  own channel token success code answered := by
    have channels := reached_channels reached
    obtain ⟨⟨i, step, registered⟩, -⟩ := channels.fired channel token success code answered
    refine ⟨i, step, registered, fun i' step' channel' registered' => ?_⟩
    exact (reached_tokensDiffer reached few).distinct token i step channel i' step' channel'
      registered registered'

/-- The device acknowledges the first step once more while the second waits. -/
def acknowledgeTwice : List Action :=
  Peer.approach "mower" Peer.genuine ++ Peer.advance 0 3 ++
    Peer.deliver (Peer.ack 0x80000001 (.response .changed)) 2 ++ Peer.advance 0 4 ++
    Peer.deliver (Peer.ack 0x80000001 (.response .changed)) 5

/-- The duplicate leaves the channel of the second step silent. -/
theorem write_steps_sequenced_with_duplicate :
    ∃ s, (serverMachine Peer.env).exec Machine.always Peer.server acknowledgeTwice = some s ∧
      (sends 0 .putServer s.log = 1 ∧ s.boot.oneshots.cell 1 = .waiting) ∧ Sequenced s.log := by
  obtain ⟨s, ran, reached, ends⟩ := (serverMachine Peer.env).exec_reaches Machine.always
    Peer.server acknowledgeTwice
    (fun s => decide ((sends 0 .putServer s.log = 1 ∧ s.boot.oneshots.cell 1 = .waiting) ∧
      issues allocatedToken s.log < 2 ^ 32))
    ⟨_, _, _, _, _, rfl⟩ (by decide +kernel)
  obtain ⟨sent, few⟩ := of_decide_eq_true ends
  exact ⟨s, ran, sent, write_steps_sequenced reached few⟩

end Lwm2mServer.WriteTokens
