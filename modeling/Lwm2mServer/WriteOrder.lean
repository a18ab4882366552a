import Lwm2mServer.WriteAcks

/-! The five steps of a write phase over whole runs: in order, each sent a
bounded number of times, each completed by the acknowledgement of its own
token. What an acknowledgement says is another matter: `handle_ack` takes
every code for success. -/
namespace Lwm2mServer.WriteOrder
open Library WriteAcks

/-- The position of a step in the sequence. -/
def rank : WriteStep → Nat
  | .deleteServer => 0
  | .putServer => 1
  | .deleteSecurity => 2
  | .putSecurity => 3
  | .postBs => 4

theorem rank_lt (step : WriteStep) : rank step < 5 := by
  cases step <;> decide

theorem rank_injective {first second : WriteStep} (same : rank first = rank second) :
    first = second := by
  cases first <;> cases second <;> first | rfl | cases same

theorem rank_previous {step before : WriteStep} (precedes : step.previous = some before) :
    rank before < rank step := by
  cases step <;> cases precedes <;> decide

theorem rank_following {step after : WriteStep} (follows : step.following = some after) :
    rank after = rank step + 1 := by
  cases step <;> cases follows <;> rfl

/-- `complete_write_ack` took effect with success for the very channel that
the step of the phase had registered under its token. -/
def Acked (i : Nat) (step : WriteStep) (log : List Event) : Prop :=
  ∃ token channel code, .registered i step token channel ∈ log ∧
    .answered channel token true code ∈ log

theorem Acked.later {i : Nat} {step : WriteStep} {log : List Event} (acked : Acked i step log)
    (events : List Event) : Acked i step (events ++ log) := by
  obtain ⟨token, channel, code, registered, answered⟩ := acked
  exact ⟨token, channel, code, List.mem_append_right _ registered, List.mem_append_right _ answered⟩

/-- How often a phase has sent the request of a step. -/
def sends (i : Nat) (step : WriteStep) (log : List Event) : Nat :=
  log.countP fun
    | .sent j other _ => j = i && other = step
    | _ => false

theorem sends_append {i : Nat} {step : WriteStep} {events log : List Event}
    (silent : ∀ token, .sent i step token ∉ events) :
    sends i step (events ++ log) = sends i step log := by
  rw [sends, List.countP_append, List.countP_eq_zero.mpr, Nat.zero_add, sends]
  intro event member counted
  cases event with
  | sent j other token =>
    simp only [Bool.and_eq_true, decide_eq_true_eq] at counted
    obtain ⟨rfl, rfl⟩ := counted
    exact silent token member
  | _ => cases counted

theorem sends_eq_zero {i : Nat} {step : WriteStep} {log : List Event}
    (silent : ∀ token, .sent i step token ∉ log) : sends i step log = 0 := by
  have none := @sends_append i step log [] silent
  rwa [List.append_nil] at none

theorem sends_cons {i : Nat} {step : WriteStep} {event : Event} {log : List Event}
    (silent : ∀ token, event ≠ .sent i step token) :
    sends i step (event :: log) = sends i step log := by
  have alone : ∀ token, .sent i step token ∉ [event] := fun token member =>
    silent token (List.mem_singleton.mp member).symm
  exact sends_append alone

/-! ## Where a phase stands -/

/-- Below this rank a step of the phase may have registered its channel. -/
def opened : PhasePc → Nat
  | .alloc step _ | .register step _ _ => rank step
  | .getCert | .encrypt _ => 3
  | .send step _ _ _ _ | .wait step _ _ _ _ | .cancel step _ => rank step + 1
  | _ => 5

/-- Below this rank every step of the phase has been acknowledged. -/
def confirmed : PhasePc → Nat
  | .alloc step _ | .register step _ _ | .send step _ _ _ _ | .wait step _ _ _ _
  | .cancel step _ => rank step
  | .getCert | .encrypt _ => 3
  | .reportOnline | .releaseId true | .mark => 5
  | .releaseId false | .finished => 0

/-- The step being transmitted with its token, its channel and how often its
request went out. -/
def transmitting : PhasePc → Option (WriteStep × Token × Nat × Nat)
  | .send step token channel _ attempt => some (step, token, channel, attempt)
  | .wait step token channel _ attempt => some (step, token, channel, attempt + 1)
  | _ => none

/-- The number of the attempt in progress. -/
def attempt : PhasePc → Nat
  | .send _ _ _ _ attempt | .wait _ _ _ _ attempt => attempt
  | _ => 0

theorem opened_le (pc : PhasePc) : opened pc ≤ 5 := by
  cases pc <;> simp only [opened] <;> first
    | exact Nat.le_refl _
    | exact Nat.le_of_lt (rank_lt _)
    | exact rank_lt _
    | decide

/-- What the history holds of the steps of a phase at its position. -/
structure Stepped (log : List Event) (i : Nat) (task : WritePhase) : Prop where
  done : ∀ step, rank step < confirmed task.pc → Acked i step log
  begun : ∀ step token channel, .registered i step token channel ∈ log → rank step < opened task.pc
  channel : ∀ step token channel token' channel', .registered i step token channel ∈ log →
    .registered i step token' channel' ∈ log → token = token' ∧ channel = channel'
  ordered : ∀ step token channel, .registered i step token channel ∈ log →
    ∀ before, rank before < rank step → Acked i before log
  unsent : ∀ step, opened task.pc ≤ rank step → sends i step log = 0
  bounded : ∀ step, sends i step log ≤ maxRetransmit + 1
  current : ∀ step token channel n, transmitting task.pc = some (step, token, channel, n) →
    .registered i step token channel ∈ log ∧ sends i step log = n
  within : attempt task.pc ≤ maxRetransmit

namespace Stepped
variable {env : Env} {log : List Event} {i : Nat} {task : WritePhase}

theorem spawned {endpoint : String} {addr : SocketAddr} {serverUri : String}
    (fresh : ∀ event ∈ log, event.phase? ≠ some i) :
    Stepped (.started i endpoint :: log) i ⟨endpoint, addr, serverUri, .alloc .deleteServer []⟩ := by
  have unregistered {step : WriteStep} {token : Token} {channel : Nat} :
      .registered i step token channel ∉ .started i endpoint :: log := by
    intro member
    exact fresh _ ((List.mem_cons.mp member).resolve_left nofun) rfl
  have unsent (step : WriteStep) : sends i step (.started i endpoint :: log) = 0 :=
    sends_eq_zero fun _ member => fresh _ ((List.mem_cons.mp member).resolve_left nofun) rfl
  constructor
  · intro step below
    cases below
  · intro step token channel member
    exact absurd member unregistered
  · intro step token channel token' channel' member
    exact absurd member unregistered
  · intro step token channel member
    exact absurd member unregistered
  · intro step _
    exact unsent step
  · intro step
    rw [unsent]
    exact Nat.zero_le _
  · intro step token channel n position
    cases position
  · exact Nat.zero_le _

/-- Events that register and send nothing for the phase, and a position that
claims no more than is known. -/
theorem moveTo {events : List Event} {pc : PhasePc} (stepped : Stepped log i task)
    (plain : ∀ step token channel, .registered i step token channel ∉ events)
    (silent : ∀ step token, .sent i step token ∉ events)
    (done : ∀ step, rank step < confirmed pc → Acked i step log)
    (wider : opened task.pc ≤ opened pc)
    (current : ∀ step token channel n, transmitting pc = some (step, token, channel, n) →
      transmitting task.pc = some (step, token, channel, n))
    (within : attempt pc ≤ maxRetransmit) : Stepped (events ++ log) i { task with pc } := by
  have old {step : WriteStep} {token : Token} {channel : Nat}
      (member : .registered i step token channel ∈ events ++ log) :
      .registered i step token channel ∈ log :=
    (List.mem_append.mp member).resolve_left (plain step token channel)
  constructor
  · intro step below
    exact (done step below).later events
  · intro step token channel member
    exact Nat.lt_of_lt_of_le (stepped.begun step token channel (old member)) wider
  · intro step token channel token' channel' first second
    exact stepped.channel step token channel token' channel' (old first) (old second)
  · intro step token channel member before below
    exact (stepped.ordered step token channel (old member) before below).later events
  · intro step beyond
    rw [sends_append (silent step)]
    exact stepped.unsent step (Nat.le_trans wider beyond)
  · intro step
    rw [sends_append (silent step)]
    exact stepped.bounded step
  · intro step token channel n position
    obtain ⟨registered, count⟩ := stepped.current step token channel n
      (current step token channel n position)
    exact ⟨List.mem_append_right _ registered, by rw [sends_append (silent step)]; exact count⟩
  · exact within

/-- Events of other phases change nothing. -/
theorem others {events : List Event} (foreign : ∀ event ∈ events, event.phase? ≠ some i)
    (stepped : Stepped log i task) : Stepped (events ++ log) i task :=
  stepped.moveTo (fun _ _ _ member => foreign _ member rfl) (fun _ _ member => foreign _ member rfl)
    stepped.done (Nat.le_refl _) (fun _ _ _ _ position => position) stepped.within

/-- The channel on which a phase waits belongs to the step it waits for. -/
theorem acked_of_sent {c : Core} (channels : Channels c) (stepped : Stepped c.log i task)
    {step : WriteStep} {token : Token} {channel : Nat} {packet : Packet} {n : Nat}
    (pc : task.pc = .wait step token channel packet n)
    (held : c.boot.oneshots.cell channel = .sent true) : Acked i step c.log := by
  obtain ⟨registered, -⟩ := stepped.current step token channel (n + 1) (by rw [pc]; rfl)
  obtain ⟨token', code, answered⟩ := channels.heard channel true held
  obtain ⟨⟨j, other, registered'⟩, -⟩ := channels.fired channel token' true code answered
  obtain ⟨-, -, rfl⟩ := channels.owned channel i step token j other token' registered registered'
  exact ⟨token, channel, code, registered, answered⟩

/-- A move that neither registers nor sends, to a position that transmits
nothing. -/
private theorem pass {events : List Event} {pc : PhasePc} (stepped : Stepped log i task)
    (plain : ∀ event ∈ events, ∀ step token channel, event ≠ .registered i step token channel)
    (silent : ∀ event ∈ events, ∀ step token, event ≠ .sent i step token)
    (done : ∀ step, rank step < confirmed pc → Acked i step log)
    (wider : opened task.pc ≤ opened pc) (idle : transmitting pc = none) (first : attempt pc = 0) :
    Stepped (events ++ log) i { task with pc } := by
  refine stepped.moveTo (fun step token channel member => plain _ member step token channel rfl)
    (fun step token member => silent _ member step token rfl) done wider ?_ ?_
  · intro step token channel n position
    rw [idle] at position
    cases position
  · rw [first]
    exact Nat.zero_le _

/-- Such a move to a position with no more steps behind it. -/
private theorem carry {events : List Event} {pc : PhasePc} (stepped : Stepped log i task)
    (plain : ∀ event ∈ events, ∀ step token channel, event ≠ .registered i step token channel)
    (silent : ∀ event ∈ events, ∀ step token, event ≠ .sent i step token)
    (fewer : confirmed pc ≤ confirmed task.pc) (wider : opened task.pc ≤ opened pc)
    (idle : transmitting pc = none) (first : attempt pc = 0) :
    Stepped (events ++ log) i { task with pc } :=
  stepped.pass plain silent (fun step below => stepped.done step (Nat.lt_of_lt_of_le below fewer))
    wider idle first

/-- A step registers its channel. -/
private theorem register {step : WriteStep} {token : Token} {packet : Packet} {channel : Nat}
    (stepped : Stepped log i task) (pc : task.pc = .register step token packet) :
    Stepped (.registered i step token channel :: log) i
      { task with pc := .send step token channel packet 0 } := by
  have known : opened task.pc = rank step := by rw [pc]; rfl
  have unregistered {token' : Token} {channel' : Nat} : .registered i step token' channel' ∉ log := by
    intro member
    have below := stepped.begun step token' channel' member
    omega
  have silent (other : WriteStep) : sends i other (.registered i step token channel :: log) =
      sends i other log := sends_cons nofun
  constructor
  · intro other below
    exact (stepped.done other (by rw [pc]; exact below)).later [_]
  · intro other token' channel' member
    change rank other < rank step + 1
    rcases List.mem_cons.mp member with same | old
    · cases same
      exact Nat.lt_succ_self _
    · have below := stepped.begun other token' channel' old
      omega
  · intro other token₁ channel₁ token₂ channel₂ first second
    rcases List.mem_cons.mp first with same | old
    · cases same
      rcases List.mem_cons.mp second with same | old
      · cases same
        exact ⟨rfl, rfl⟩
      · exact absurd old unregistered
    · rcases List.mem_cons.mp second with same | old'
      · cases same
        exact absurd old unregistered
      · exact stepped.channel other token₁ channel₁ token₂ channel₂ old old'
  · intro other token' channel' member before below
    rcases List.mem_cons.mp member with same | old
    · cases same
      exact (stepped.done before (by rw [pc]; exact below)).later [_]
    · exact (stepped.ordered other token' channel' old before below).later [_]
  · intro other beyond
    change rank step + 1 ≤ rank other at beyond
    rw [silent]
    exact stepped.unsent other (by omega)
  · intro other
    rw [silent]
    exact stepped.bounded other
  · intro other token' channel' n position
    cases position
    exact ⟨List.mem_cons_self, by rw [silent]; exact stepped.unsent step (Nat.le_of_eq known)⟩
  · exact Nat.zero_le _

/-- The request of a step goes out. -/
private theorem send {step : WriteStep} {token : Token} {packet : Packet} {channel n : Nat}
    (stepped : Stepped log i task) (pc : task.pc = .send step token channel packet n) :
    Stepped (.sent i step token :: log) i { task with pc := .wait step token channel packet n } := by
  obtain ⟨registered, count⟩ := stepped.current step token channel n (by rw [pc]; rfl)
  have within : n ≤ maxRetransmit := by
    have bound := stepped.within
    rw [pc] at bound
    exact bound
  have old {other : WriteStep} {token' : Token} {channel' : Nat}
      (member : .registered i other token' channel' ∈ .sent i step token :: log) :
      .registered i other token' channel' ∈ log := (List.mem_cons.mp member).resolve_left nofun
  have own : sends i step (.sent i step token :: log) = n + 1 := by
    rw [← count]
    simp [sends]
  have apart {other : WriteStep} (different : step ≠ other) :
      sends i other (.sent i step token :: log) = sends i other log := by
    refine sends_cons fun token' same => ?_
    cases same
    exact different rfl
  constructor
  · intro other below
    exact (stepped.done other (by rw [pc]; exact below)).later [_]
  · intro other token' channel' member
    have below := stepped.begun other token' channel' (old member)
    rw [pc] at below
    exact below
  · intro other token₁ channel₁ token₂ channel₂ first second
    exact stepped.channel other token₁ channel₁ token₂ channel₂ (old first) (old second)
  · intro other token' channel' member before below
    exact (stepped.ordered other token' channel' (old member) before below).later [_]
  · intro other beyond
    change rank step + 1 ≤ rank other at beyond
    rw [apart (by rintro rfl; omega)]
    exact stepped.unsent other (by rw [pc]; exact beyond)
  · intro other
    by_cases same : step = other
    · subst same
      omega
    · rw [apart same]
      exact stepped.bounded other
  · intro other token' channel' m position
    cases position
    exact ⟨List.mem_cons_of_mem _ registered, own⟩
  · exact within

/-- With the acknowledgement of the last step all five are acknowledged. -/
theorem all_acked {c : Core} (channels : Channels c) (stepped : Stepped c.log i task) {token : Token}
    {channel : Nat} {packet : Packet} {n : Nat} (pc : task.pc = .wait .postBs token channel packet n)
    (held : c.boot.oneshots.cell channel = .sent true) (step : WriteStep) : Acked i step c.log := by
  by_cases same : rank step = 4
  · have last : step = .postBs := rank_injective same
    rw [last]
    exact stepped.acked_of_sent channels pc held
  · have below := rank_lt step
    exact stepped.done step (by rw [pc]; change rank step < 4; omega)

/-- Own moves keep the relation. -/
theorem moves {c : Core} {outcome : PhaseOutcome} (channels : Channels c)
    (stepped : Stepped c.log i task) (move : PhaseMove env c.boot i task outcome) :
    Stepped (outcome.events ++ c.log) i { task with pc := outcome.pc } := by
  cases move with
  | register pc => exact stepped.register pc
  | send pc => exact stepped.send pc
  | retransmit pc less =>
    refine stepped.moveTo (fun _ _ _ => List.not_mem_nil) (fun _ _ => List.not_mem_nil) ?_ ?_ ?_ less
    · intro step below
      exact stepped.done step (by rw [pc]; exact below)
    · rw [pc]
      exact Nat.le_refl _
    · intro step token channel n position
      rw [pc]
      exact position
  | alloc pc | readCert pc | encrypt pc | giveUp pc =>
    exact stepped.carry (by simp) (by simp) (by rw [pc]; rfl) (by rw [pc]; rfl) rfl rfl
  | reportOnline pc => exact stepped.carry (by simp) (by simp) (by rw [pc]; rfl) (opened_le _) rfl rfl
  | @acknowledged step token channel packet n next after pc held follows goes =>
    have acked := stepped.acked_of_sent channels pc held
    have confirm (other : WriteStep) (below : rank other < rank next) : Acked i other c.log := by
      rw [rank_following follows] at below
      by_cases same : rank other = rank step
      · rw [rank_injective same]
        exact acked
      · exact stepped.done other (by rw [pc]; change rank other < rank step; omega)
    have reach : opened task.pc ≤ rank next := by
      rw [pc, rank_following follows]
      exact Nat.le_refl _
    rcases goes with rfl | ⟨rfl, rfl⟩
    · exact stepped.pass (by simp) (by simp) confirm reach rfl rfl
    · exact stepped.pass (by simp) (by simp) confirm reach rfl rfl
  | completed pc held =>
    exact stepped.pass (by simp) (by simp) (fun step _ => stepped.all_acked channels pc held step)
      (opened_le _) rfl rfl
  | @release success _ _ pc =>
    cases success with
    | true => exact stepped.carry (by simp) (by simp) (by rw [pc]; rfl) (opened_le _) rfl rfl
    | false => exact stepped.carry (by simp) (by simp) (Nat.zero_le _) (opened_le _) rfl rfl
  | allocFailed | encryptFailed | cancel | fail | mark =>
    exact stepped.carry (by simp) (by simp) (Nat.zero_le _) (opened_le _) rfl rfl

end Stepped

/-- Every write phase stands where its steps have brought it. -/
theorem reached_stepped {env : Env} {s : Server} {i : Nat} {task : WritePhase}
    (reached : (serverMachine env).Reaches Machine.always s) (held : s.phases.get? i = some task) :
    Stepped s.log i task := by
  refine phase_invariant Machine.always reached Channels Stepped ?_ ?_ ?_ ?_ i task held
  · exact fun s reached => reached_channels reached
  · exact fun log i endpoint addr serverUri fresh => Stepped.spawned fresh
  · exact fun c i task outcome channels _ move stepped => stepped.moves channels move
  · exact fun events log i task foreign stepped => stepped.others foreign

/-! ## Order of events -/

/-- The order the history must show: a request goes out under the token its
step registered and after the step before it was acknowledged; a step is
acknowledged after the one before it; and a phase returns `Ok` after all five
were. -/
def InOrder (event : Event) (earlier : List Event) : Prop :=
  match event with
  | .sent i step token => (∃ channel, .registered i step token channel ∈ earlier) ∧
      ∀ before, step.previous = some before → Acked i before earlier
  | .answered channel token true _ => ∀ i step, .registered i step token channel ∈ earlier →
      ∀ before, step.previous = some before → Acked i before earlier
  | .ended i _ (.ok _) => ∀ step, Acked i step earlier
  | _ => True

private theorem inOrder_step {env : Env} {c next : Core} {action : Action} (channels : Channels c)
    (named : PhasesNamed c) (stepped : ∀ i task, c.phases.get? i = some task → Stepped c.log i task)
    (every : EveryEvent InOrder c.log) (moved : Transition env c action next) :
    EveryEvent InOrder next.log := by
  cases moved with
  | quiet _ minor => exact every.append (minor_events minor fun _ _ _ => trivial)
  | @answer success =>
    refine ⟨?_, every⟩
    cases success with
    | false => exact trivial
    | true =>
      intro i step registered before precedes
      obtain ⟨task, found⟩ := c.phases.exists_of_lt_count (named _ registered i rfl)
      exact (stepped i task found).ordered step _ _ registered before (rank_previous precedes)
  | @phase i task outcome choice held move =>
    have here := stepped i task held
    cases move with
    | @send step token channel packet n pc =>
      obtain ⟨registered, -⟩ := here.current step token channel n (by rw [pc]; rfl)
      refine ⟨⟨⟨channel, registered⟩, fun before precedes => ?_⟩, every⟩
      exact here.done before (by rw [pc]; exact rank_previous precedes)
    | completed pc held => exact ⟨fun step => here.all_acked channels pc held step, every⟩
    | allocFailed | encryptFailed => exact ⟨trivial, trivial, every⟩
    | readCert | acknowledged | retransmit | giveUp | release => exact every
    | _ => exact ⟨trivial, every⟩
  | findApproved | missCert | reject | expire => exact every
  | _ => exact ⟨trivial, every⟩

theorem reached_inOrder {env : Env} {s : Server}
    (reached : (serverMachine env).Reaches Machine.always s) : EveryEvent InOrder s.log := by
  refine history_invariant reached InOrder (fun _ => trivial) ?_
  intro s action next before _ every moved
  exact inOrder_step (reached_channels before) (reached_phasesNamed before)
    (fun i task held => reached_stepped before held) every moved

end Lwm2mServer.WriteOrder
