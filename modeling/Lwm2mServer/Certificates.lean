import Lwm2mServer.Consent

/-! The certificate cache between GET /0/0, its check and the write phase.

`complete` puts a payload into the cache before it is checked, and the write
phase reads the cache only after its third request. Two things can go wrong:
a payload is read while it waits for its check, and a phase starts without a
payload at all. -/
namespace Lwm2mServer.Certificates
open Library Consent

variable {env : Env} {c next : Core} {action : Action}

/-- A check that came out well is in the history. -/
def Verdicts : Event → Bool
  | .verdict .. => true
  | _ => false

/-- A step seen from the certificate cache: a payload goes in, is accepted,
is declined, comes out again, or the cache is left alone. -/
theorem cache_cases (moved : Transition env c action next) :
    (next.boot.certCache = c.boot.certCache ∧
      (next.recv = c.recv ∨ c.recv.unchecked = none ∧ next.recv.unchecked = none) ∧
      ∃ events, next.log = events ++ c.log ∧ ∀ event ∈ events, Verdicts event = false) ∨
    (∃ packet session, c.recv = .ackComplete packet ∧
      c.boot.byToken.lookup (tokenArray packet.token) = some session ∧
      next = { c with
        boot := { c.boot with
          byToken := c.boot.byToken.erase (tokenArray packet.token)
          byEndpoint := c.boot.byEndpoint.erase session.endpoint
          certCache := c.boot.certCache.insert session.endpoint packet.payload }
        recv := .ackValidate session.endpoint packet.payload
        log := .cached session.endpoint packet.payload :: c.log }) ∨
    (∃ endpoint payload, c.recv = .ackValidate endpoint payload ∧
      env.checkPayload payload endpoint = .ok () ∧
      next = { c with recv := .idle, log := .verdict endpoint payload true :: c.log }) ∨
    (∃ endpoint payload, c.recv = .ackValidate endpoint payload ∧
      next = { c with
        recv := .ackReject endpoint
        log := .verdict endpoint payload false :: c.log }) ∨
    (∃ endpoint, c.recv = .ackReject endpoint ∧
      next = { c with
        boot := { c.boot with certCache := c.boot.certCache.erase endpoint }
        recv := .idle }) := by
  cases moved with
  | complete position held => exact Or.inr (Or.inl ⟨_, _, position, held, rfl⟩)
  | accept position valid => exact Or.inr (Or.inr (Or.inl ⟨_, _, position, valid, rfl⟩))
  | decline position => exact Or.inr (Or.inr (Or.inr (Or.inl ⟨_, _, position, rfl⟩)))
  | reject position => exact Or.inr (Or.inr (Or.inr (Or.inr ⟨_, position, rfl⟩)))
  | quiet moves minor =>
    refine Or.inl ⟨rfl, ?_, _, rfl, minor_events minor fun _ _ => rfl⟩
    rcases moves with same | ⟨plain, checked⟩
    · exact Or.inl same
    · exact Or.inr ⟨checked, Recv.unchecked_plain plain⟩
  | phase held move =>
    refine Or.inl ?_
    cases move <;> exact ⟨rfl, Or.inl rfl, _, rfl, by simp [Verdicts]⟩
  | findApproved position | missCert position =>
    exact Or.inl ⟨rfl, Or.inr ⟨by rw [position]; rfl, rfl⟩, [], rfl, fun _ member => by cases member⟩
  | expire => exact Or.inl ⟨rfl, Or.inl rfl, [], rfl, fun _ member => by cases member⟩
  | exclude | approve => exact Or.inl ⟨rfl, Or.inl rfl, [_], rfl, List.forall_mem_singleton.mpr rfl⟩
  | answer position =>
    refine Or.inl ⟨rfl, Or.inr ⟨?_, rfl⟩, [_], rfl, List.forall_mem_singleton.mpr rfl⟩
    rw [position]
    split <;> rfl
  | announceKnown position | announceFresh position | consume position | startPhase position
  | begin position | refuse position | dispatchReset position | scheduleRemoval position =>
    exact Or.inl ⟨rfl, Or.inr ⟨by rw [position]; rfl, rfl⟩, [_], rfl,
      List.forall_mem_singleton.mpr rfl⟩

/-! ## The key goes to checked certificates only -/

/-- No write phase reads the cache while the payload there waits for its
check, that is while `handle_ack` is between `complete` and the verdict or the
removal that follows it. -/
def ReadsChecked (c : Core) : Action → Bool
  | .phase i _ =>
    match c.phases.get? i with
    | some ⟨endpoint, _, _, .getCert⟩ => c.recv.unchecked ≠ some endpoint
    | _ => true
  | _ => true

/-- The certificate a network key is encrypted to comes from a payload whose
check had returned `Ok` for the endpoint. -/
def Vetted (env : Env) (event : Event) (earlier : List Event) : Prop :=
  ∀ i endpoint cert, event = .encrypted i endpoint cert → ∃ payload,
    env.devicePubkey payload = .ok cert ∧ env.validateDeviceCertificate cert endpoint = .ok () ∧
      .verdict endpoint payload true ∈ earlier

/-- What is cached is vouched for by the history, or about to be checked. -/
structure Vouched (env : Env) (c : Core) : Prop where
  sound : ∀ endpoint payload, .verdict endpoint payload true ∈ c.log →
    env.checkPayload payload endpoint = .ok ()
  waiting : ∀ endpoint payload, c.recv = .ackValidate endpoint payload →
    c.boot.certCache.lookup endpoint = some payload
  cached : ∀ endpoint payload, c.boot.certCache.lookup endpoint = some payload →
    c.recv.unchecked = some endpoint ∨ .verdict endpoint payload true ∈ c.log
  reading : ∀ i task payload, c.phases.get? i = some task → task.pc = .encrypt payload →
    .verdict task.endpoint payload true ∈ c.log
  vetted : EveryEvent (Vetted env) c.log

theorem vouched_initial (initial : c.Initial) : Vouched env c := by
  obtain ⟨seed, serverUri, included, rfl⟩ := initial
  constructor
  · intro endpoint payload member
    cases List.mem_singleton.mp member
  · intro endpoint payload position
    cases position
  · intro endpoint payload held
    cases held
  · intro i task payload held
    cases (Tasks.get?_empty i).symm.trans held
  · exact ⟨nofun, trivial⟩

private theorem sound_step (vouched : Vouched env c) (moved : Transition env c action next)
    {endpoint : String} {payload : Bytes} (member : .verdict endpoint payload true ∈ next.log) :
    env.checkPayload payload endpoint = .ok () := by
  have before := vouched.sound endpoint payload
  rcases cache_cases moved with ⟨-, -, events, log, plain⟩ | ⟨packet, session, -, -, rfl⟩ |
    ⟨other, checked, -, valid, rfl⟩ | ⟨other, checked, -, rfl⟩ | ⟨other, -, rfl⟩
  · rw [log] at member
    rcases List.mem_append.mp member with added | old
    · cases plain _ added
    · exact before old
  · rcases List.mem_cons.mp member with same | old
    · cases same
    · exact before old
  · rcases List.mem_cons.mp member with same | old
    · cases same
      exact valid
    · exact before old
  · rcases List.mem_cons.mp member with same | old
    · cases same
    · exact before old
  · exact before member

private theorem cached_step (vouched : Vouched env c) (moved : Transition env c action next) :
    (∀ endpoint payload, next.recv = .ackValidate endpoint payload →
      next.boot.certCache.lookup endpoint = some payload) ∧
    ∀ endpoint payload, next.boot.certCache.lookup endpoint = some payload →
      next.recv.unchecked = some endpoint ∨ .verdict endpoint payload true ∈ next.log := by
  have grown {endpoint : String} {payload : Bytes}
      (member : .verdict endpoint payload true ∈ c.log) := moved.mem_log member
  rcases cache_cases moved with ⟨cache, recv, -⟩ | ⟨packet, session, position, -, rfl⟩ |
    ⟨other, checked, position, valid, rfl⟩ | ⟨other, checked, position, rfl⟩ | ⟨other, position, rfl⟩
  · rw [cache]
    constructor
    · intro endpoint payload position
      rcases recv with same | ⟨-, none⟩
      · exact vouched.waiting endpoint payload (same ▸ position)
      · rw [position] at none
        cases none
    · intro endpoint payload held
      rcases vouched.cached endpoint payload held with window | member
      · rcases recv with same | ⟨none, -⟩
        · exact Or.inl (same ▸ window)
        · rw [none] at window
          cases window
      · exact Or.inr (grown member)
  · constructor
    · intro endpoint payload position
      cases position
      rw [Table.lookup_insert_if, if_pos rfl]
    · intro endpoint payload held
      rw [Table.lookup_insert_if] at held
      split at held
      · rename_i same
        exact Or.inl (congrArg some same.symm)
      · rcases vouched.cached endpoint payload held with window | member
        · rw [position] at window
          cases window
        · exact Or.inr (grown member)
  · refine ⟨nofun, fun endpoint payload held => Or.inr ?_⟩
    rcases vouched.cached endpoint payload held with window | member
    · rw [position] at window
      cases window
      have same := vouched.waiting other checked position
      cases same.symm.trans held
      exact List.mem_cons_self
    · exact grown member
  · refine ⟨nofun, fun endpoint payload held => ?_⟩
    rcases vouched.cached endpoint payload held with window | member
    · rw [position] at window
      exact Or.inl window
    · exact Or.inr (grown member)
  · refine ⟨nofun, fun endpoint payload held => ?_⟩
    rw [Table.lookup_erase_if] at held
    split at held
    · cases held
    · rename_i different
      rcases vouched.cached endpoint payload held with window | member
      · rw [position] at window
        cases window
        exact absurd rfl different
      · exact Or.inr (grown member)

/-- A payload that a phase takes from the cache has been checked. -/
private theorem read_checked (vouched : Vouched env c) {i : Nat} {choice : Choice}
    (checked : ReadsChecked c (.phase i choice)) {task : WritePhase}
    (held : c.phases.get? i = some task) (pc : task.pc = .getCert) {payload : Bytes}
    (found : c.boot.certCache.lookup task.endpoint = some payload) :
    .verdict task.endpoint payload true ∈ c.log := by
  obtain ⟨endpoint, addr, serverUri, pc'⟩ := task
  cases pc
  simp only [ReadsChecked, held, decide_eq_true_eq] at checked
  exact (vouched.cached endpoint payload found).resolve_left checked

private theorem reading_step (vouched : Vouched env c) (checked : ReadsChecked c action)
    (moved : Transition env c action next) {j : Nat} {task : WritePhase} {payload : Bytes}
    (held : next.phases.get? j = some task) (pc : task.pc = .encrypt payload) :
    .verdict task.endpoint payload true ∈ next.log := by
  apply moved.mem_log
  rcases phase_cases moved with ⟨phases, -⟩ | ⟨endpoint, packet, addr, serverUri, -, rfl⟩ |
    ⟨i, choice, old, outcome, rfl, found, move, rfl⟩
  · rw [phases] at held
    exact vouched.reading j task payload held pc
  · rw [Tasks.get?_spawn] at held
    split at held
    · cases held
      cases pc
    · exact vouched.reading j task payload held pc
  · rw [Tasks.get?_update _ found] at held
    split at held
    · cases held
      cases move with
      | readCert at_ cached =>
        cases pc
        exact read_checked vouched checked found at_ cached
      | acknowledged _ _ _ goes => rcases goes with rfl | ⟨-, rfl⟩ <;> cases pc
      | @release success => cases success <;> cases pc
      | _ => cases pc
    · exact vouched.reading j task payload held pc

private theorem vetted_encrypt (vouched : Vouched env c) {i : Nat} {task : WritePhase}
    (held : c.phases.get? i = some task) {payload cert : Bytes} (pc : task.pc = .encrypt payload)
    (parsed : env.devicePubkey payload = .ok cert) :
    Vetted env (.encrypted i task.endpoint cert) c.log := by
  intro j endpoint cert' same
  cases same
  have member := vouched.reading i task payload held pc
  have valid := vouched.sound _ _ member
  simp only [Env.checkPayload, parsed] at valid
  exact ⟨payload, parsed, valid, member⟩

private theorem vetted_step (vouched : Vouched env c) (moved : Transition env c action next) :
    EveryEvent (Vetted env) next.log := by
  rcases phase_cases moved with ⟨-, events, log, foreign⟩ |
    ⟨endpoint, packet, addr, serverUri, -, rfl⟩ | ⟨i, choice, task, outcome, -, held, move, rfl⟩
  · rw [log]
    refine vouched.vetted.append fun event member earlier i endpoint cert same => ?_
    subst same
    cases foreign _ member
  · exact ⟨nofun, vouched.vetted⟩
  · cases move with
    | encrypt pc parsed => exact ⟨vetted_encrypt vouched held pc parsed, vouched.vetted⟩
    | encryptFailed pc parsed =>
      exact ⟨nofun, vetted_encrypt vouched held pc parsed, vouched.vetted⟩
    | _ =>
      refine vouched.vetted.append fun event member earlier i endpoint cert same => ?_
      subst same
      simp at member

theorem vouched_step (vouched : Vouched env c) (checked : ReadsChecked c action)
    (moved : Transition env c action next) : Vouched env next where
  sound _ _ member := sound_step vouched moved member
  waiting := (cached_step vouched moved).1
  cached := (cached_step vouched moved).2
  reading _ _ _ held pc := reading_step vouched checked moved held pc
  vetted := vetted_step vouched moved

/-- **The network key is encrypted only to checked certificates**, in every
run in which no write phase reads the cache between `complete` and the check. -/
theorem key_encrypted_to_checked {s : Server}
    (reached : (serverMachine env).Reaches (fun s action => ReadsChecked s.core action) s) :
    EveryEvent (Vetted env) s.log := by
  have vouched : Vouched env s.core :=
    core_invariant (fun c action => ReadsChecked c action) (Vouched env) reached
      (fun _ initial => vouched_initial initial)
      fun _ _ _ vouched checked moved => vouched_step vouched checked moved
  exact vouched.vetted

/-- A whole inclusion of a device with a genuine certificate. -/
def includeGenuine : List Action :=
  Peer.approach "mower" Peer.genuine ++ Peer.provision (.response .changed)

theorem key_encrypted_to_checked_in_inclusion :
    ∃ s, (serverMachine Peer.env).exec (fun s action => ReadsChecked s.core action)
        Peer.server includeGenuine = some s ∧
      s.log.any (fun event => event matches .encrypted ..) ∧
      EveryEvent (Vetted Peer.env) s.log := by
  obtain ⟨s, ran, reached, ends⟩ := (serverMachine Peer.env).exec_reaches
    (fun s action => ReadsChecked s.core action) Peer.server includeGenuine
    (fun s => s.log.any (fun event => event matches .encrypted ..))
    ⟨_, _, _, _, _, rfl⟩ (by decide +kernel)
  exact ⟨s, ran, ends, key_encrypted_to_checked reached⟩

/-- The user approves before the certificate has been read, the write phase
runs up to its fourth step, and only then the device answers GET /0/0 with a
certificate that is not its own; the phase moves on before the check does. -/
def answerAtStepFour : List Action :=
  Peer.deliver (Peer.post "bs" "mower") 6 ++ .includeDevice 1 ::
    Peer.deliver (Peer.post "bs" "mower") 5 ++ Peer.advance 0 3 ++
    Peer.deliver (Peer.ack 0x80000001 (.response .deleted)) 2 ++ Peer.advance 0 4 ++
    Peer.deliver (Peer.ack 0x80000002 (.response .changed)) 2 ++ Peer.advance 0 4 ++
    Peer.deliver (Peer.ack 0x80000003 (.response .deleted)) 2 ++ Peer.advance 0 1 ++
    Peer.deliver (Peer.ack 0x80000000 (.response .content) (Peer.certPayload Peer.forged)) 4 ++
    Peer.advance 0 2

/-- The network key is then encrypted to a certificate that no check accepted. -/
theorem key_encrypted_to_unchecked :
    ∃ s, (serverMachine Peer.env).exec Machine.always Peer.server answerAtStepFour = some s ∧
      .encrypted 0 "mower" Peer.forged ∈ s.log ∧ ¬ EveryEvent (Vetted Peer.env) s.log := by
  obtain ⟨s, ran, -, ends⟩ := (serverMachine Peer.env).exec_reaches Machine.always Peer.server
    answerAtStepFour (fun s => decide (.encrypted 0 "mower" Peer.forged ∈ s.log))
    ⟨_, _, _, _, _, rfl⟩ (by decide +kernel)
  have encrypted := of_decide_eq_true ends
  refine ⟨s, ran, encrypted, fun every => ?_⟩
  obtain ⟨earlier, vetted, -⟩ := every.of_mem encrypted
  obtain ⟨payload, -, valid, -⟩ := vetted 0 "mower" Peer.forged rfl
  exact absurd valid (by simp [Peer.env, Peer.forged, Peer.genuine])

/-! ## No write phase without a certificate -/

/-- Pending GET /0/0 exchanges: one for each endpoint, and none for an
endpoint that has something in the cache. -/
structure Sessions (c : Core) : Prop where
  indexed : ∀ token session, c.boot.byToken.lookup token = some session →
    c.boot.byEndpoint.lookup session.endpoint = some token
  uncached : ∀ token session, c.boot.byToken.lookup token = some session →
    c.boot.certCache.lookup session.endpoint = none
  beginning : ∀ endpoint addr, c.recv = .begin endpoint addr →
    c.boot.certCache.lookup endpoint = none

/-- The two session maps after `expire_stale`: only whole sessions go. -/
private theorem expireStale_sessions {boot : BootstrapRegistry} (now : Instant) (maxSecs : Nat)
    (indexed : ∀ token session, boot.byToken.lookup token = some session →
      boot.byEndpoint.lookup session.endpoint = some token) :
    ∀ token session, (boot.expireStale now maxSecs).byToken.lookup token = some session →
      boot.byToken.lookup token = some session ∧
      (boot.expireStale now maxSecs).byEndpoint.lookup session.endpoint = some token := by
  unfold BootstrapRegistry.expireStale
  dsimp only
  generalize ((boot.byToken.entries.filter fun entry =>
    maxSecs < elapsedSecs now entry.2.startedAt).map (·.1)) = tokens
  induction tokens generalizing boot with
  | nil => exact fun token session held => ⟨held, indexed token session held⟩
  | cons stale rest ih =>
    have one : ∀ token session, (boot.expireOne stale).byToken.lookup token = some session →
        boot.byToken.lookup token = some session ∧
        (boot.expireOne stale).byEndpoint.lookup session.endpoint = some token := by
      unfold BootstrapRegistry.expireOne
      split
      · exact fun token session held => ⟨held, indexed token session held⟩
      · rename_i expired found
        intro token session held
        simp only [Table.lookup_erase_if] at held ⊢
        split at held
        · cases held
        · rename_i different
          refine ⟨held, ?_⟩
          have other : session.endpoint ≠ expired.endpoint := by
            intro same
            have first := indexed token session held
            rw [same, indexed stale expired found] at first
            exact different (Option.some.inj first).symm
          rw [if_neg other]
          exact indexed token session held
    intro token session held
    obtain ⟨kept, found⟩ := ih (fun token session held => (one token session held).2) token session held
    exact ⟨(one token session kept).1, found⟩

theorem sessions_initial (initial : c.Initial) : Sessions c := by
  obtain ⟨seed, serverUri, included, rfl⟩ := initial
  constructor
  · intro token session held
    cases held
  · intro token session held
    cases held
  · intro endpoint addr position
    cases position

theorem sessions_step (sessions : Sessions c) (moved : Transition env c action next) :
    Sessions next := by
  obtain ⟨indexed, uncached, beginning⟩ := sessions
  cases moved with
  | quiet moves _ =>
    refine ⟨indexed, uncached, fun endpoint addr position => ?_⟩
    rcases moves with same | ⟨plain, -⟩
    · exact beginning endpoint addr (same ▸ position)
    · have plain : Recv.Plain (.begin endpoint addr) := position ▸ plain
      cases plain
  | missCert _ missing =>
    refine ⟨indexed, uncached, fun endpoint addr position => ?_⟩
    cases position
    exact missing
  | begin position free =>
    refine ⟨fun token session held => ?_, fun token session held => ?_, nofun⟩
    · simp only [Table.lookup_insert_if] at held ⊢
      split at held
      · rename_i same
        cases held
        rw [if_pos rfl, same]
      · have found := indexed token session held
        rw [if_neg, found]
        intro same
        rw [same, free] at found
        cases found
    · simp only [Table.lookup_insert_if] at held ⊢
      split at held
      · cases held
        exact beginning _ _ position
      · exact uncached token session held
  | @complete packet pending choice position found =>
    have other {token : Token} {session : BootstrapSession}
        (different : token ≠ tokenArray packet.token)
        (held : c.boot.byToken.lookup token = some session) : session.endpoint ≠ pending.endpoint := by
      intro same
      have first := indexed token session held
      rw [same, indexed _ pending found] at first
      exact different (Option.some.inj first).symm
    refine ⟨fun token session held => ?_, fun token session held => ?_, nofun⟩
    · simp only [Table.lookup_erase_if] at held ⊢
      split at held
      · cases held
      · rename_i different
        rw [if_neg (other different held)]
        exact indexed token session held
    · simp only [Table.lookup_erase_if, Table.lookup_insert_if] at held ⊢
      split at held
      · cases held
      · rename_i different
        rw [if_neg (other different held)]
        exact uncached token session held
  | reject =>
    refine ⟨indexed, fun token session held => ?_, nofun⟩
    simp only [Table.lookup_erase_if]
    split
    · rfl
    · exact uncached token session held
  | @expire now maxSecs byToken byEndpoint expired =>
    have kept := expireStale_sessions now maxSecs indexed
    rw [expired] at kept
    exact ⟨fun token session held => (kept token session held).2,
      fun token session held => uncached token session (kept token session held).1, beginning⟩
  | phase held move =>
    cases move <;> exact ⟨indexed, uncached, beginning⟩
  | approve | exclude => exact ⟨indexed, uncached, beginning⟩
  | _ => exact ⟨indexed, uncached, nofun⟩

/-- A POST /bs that finds its endpoint approved finds its certificate cached. -/
def StartsWithCert (c : Core) : Action → Bool
  | .recv _ =>
    match c.recv with
    | .askApproved endpoint _ _ => endpoint ∉ c.boot.approved || c.boot.hasCert endpoint
    | _ => true
  | _ => true

/-- Whatever has started, or is about to, has its certificate in the cache for
good: no pending answer can take it out again. -/
structure Ready (c : Core) : Prop where
  pending : ∀ endpoint, consuming c.recv = some endpoint ∨ starting c.recv = some endpoint →
    c.boot.hasCert endpoint
  started : ∀ i task, c.phases.get? i = some task → c.boot.hasCert task.endpoint
  settled : ∀ i task, c.phases.get? i = some task → c.recv.unchecked ≠ some task.endpoint

theorem ready_initial (initial : c.Initial) : Ready c := by
  obtain ⟨seed, serverUri, included, rfl⟩ := initial
  constructor
  · rintro endpoint (pending | pending) <;> cases pending
  · intro i task held
    cases (Tasks.get?_empty i).symm.trans held
  · intro i task held
    cases (Tasks.get?_empty i).symm.trans held

/-- What a step of a phase leaves of the tasks: the same endpoints. -/
private theorem task_before (moved : Transition env c action next) {j : Nat} {task : WritePhase}
    (held : next.phases.get? j = some task) :
    (∃ old, c.phases.get? j = some old ∧ old.endpoint = task.endpoint) ∨
      (starting c.recv = some task.endpoint ∧ next.boot = c.boot ∧ next.recv = .idle) := by
  rcases phase_cases moved with ⟨phases, -⟩ | ⟨endpoint, packet, addr, serverUri, position, rfl⟩ |
    ⟨i, choice, old, outcome, -, found, move, rfl⟩
  · rw [phases] at held
    exact Or.inl ⟨task, held, rfl⟩
  · rw [Tasks.get?_spawn] at held
    split at held
    · cases held
      exact Or.inr ⟨by rw [position]; rfl, rfl, rfl⟩
    · exact Or.inl ⟨task, held, rfl⟩
  · rw [Tasks.get?_update _ found] at held
    split at held
    · rename_i own
      cases held
      subst own
      exact Or.inl ⟨old, found, rfl⟩
    · exact Or.inl ⟨task, held, rfl⟩

private theorem pending_step (ready : Ready c) (starts : StartsWithCert c action)
    (moved : Transition env c action next) {endpoint : String}
    (position : consuming next.recv = some endpoint ∨ starting next.recv = some endpoint) :
    next.boot.hasCert endpoint := by
  have kept := ready.pending endpoint
  cases moved with
  | quiet moves _ =>
    rcases moves with same | ⟨plain, -⟩
    · rw [same] at position
      exact kept position
    · rw [consuming_plain plain, starting_plain plain] at position
      exact (position.elim nofun nofun)
  | @findApproved found packet addr choice at_ approved =>
    rcases position with same | same <;> cases same
    simp only [StartsWithCert, at_, approved, not_true_eq_false, decide_false, Bool.false_or] at starts
    exact starts
  | consume at_ =>
    rcases position with same | same <;> cases same
    exact kept (Or.inl (by rw [at_]; rfl))
  | phase held move => cases move <;> exact kept position
  | approve | exclude | expire => exact kept position
  | _ => rcases position with same | same <;> cases same

private theorem started_step (sessions : Sessions c) (ready : Ready c)
    (moved : Transition env c action next) {j : Nat} {task : WritePhase}
    (held : next.phases.get? j = some task) :
    next.boot.hasCert task.endpoint ∧ next.recv.unchecked ≠ some task.endpoint := by
  have none_ne := (Option.some_ne_none task.endpoint).symm
  rcases task_before moved held with ⟨old, found, named⟩ | ⟨position, boot, recv⟩
  · have cached := ready.started j old found
    have settled := ready.settled j old found
    rw [named] at cached settled
    rcases cache_cases moved with ⟨cache, recv, -⟩ | ⟨packet, session, -, pending, rfl⟩ |
      ⟨other, payload, -, -, rfl⟩ | ⟨other, payload, position, rfl⟩ | ⟨other, position, rfl⟩
    · refine ⟨by rw [BootstrapRegistry.hasCert, cache]; exact cached, ?_⟩
      rcases recv with same | ⟨-, none⟩
      · rw [same]
        exact settled
      · rw [none]
        exact none_ne
    · have missing := sessions.uncached _ session pending
      have different : task.endpoint ≠ session.endpoint := by
        intro same
        rw [BootstrapRegistry.hasCert, same, missing] at cached
        cases cached
      refine ⟨?_, fun window => different (Option.some.inj window).symm⟩
      rw [BootstrapRegistry.hasCert, Table.lookup_insert_if, if_neg different]
      exact cached
    · exact ⟨cached, none_ne⟩
    · rw [position] at settled
      exact ⟨cached, settled⟩
    · rw [position] at settled
      have different : task.endpoint ≠ other := fun same => settled (congrArg some same.symm)
      refine ⟨?_, none_ne⟩
      rw [BootstrapRegistry.hasCert, Table.lookup_erase_if, if_neg different]
      exact cached
  · rw [boot, recv]
    exact ⟨ready.pending _ (Or.inr position), none_ne⟩

theorem ready_step (sessions : Sessions c) (ready : Ready c) (starts : StartsWithCert c action)
    (moved : Transition env c action next) : Ready next where
  pending _ position := pending_step ready starts moved position
  started _ _ held := (started_step sessions ready moved held).1
  settled _ _ held := (started_step sessions ready moved held).2

/-- DELETE /1 goes to a device only when its certificate is cached, and the
certificate is there when the fourth step reads it. -/
structure Provisionable (s : Server) : Prop where
  delete : ∀ i task token channel packet attempt, s.phases.get? i = some task →
    task.pc = .send .deleteServer token channel packet attempt → s.boot.hasCert task.endpoint
  stepFour : ∀ i task, s.phases.get? i = some task → task.pc = .getCert →
    s.boot.getCert task.endpoint ≠ none

/-- **No device is erased for want of a certificate**, in every run in which
every POST /bs that finds its endpoint approved finds its certificate cached. -/
theorem erased_with_certificate {s : Server}
    (reached : (serverMachine env).Reaches (fun s action => StartsWithCert s.core action) s) :
    Provisionable s := by
  have both : Sessions s.core ∧ Ready s.core := by
    refine core_invariant (fun c action => StartsWithCert c action)
      (fun c => Sessions c ∧ Ready c) reached ?_ ?_
    · exact fun c initial => ⟨sessions_initial initial, ready_initial initial⟩
    · intro c action next ⟨sessions, ready⟩ starts moved
      exact ⟨sessions_step sessions moved, ready_step sessions ready starts moved⟩
  constructor
  · intro i task token channel packet attempt held _
    exact both.2.started i task held
  · intro i task held _ missing
    have cached : (s.boot.certCache.lookup task.endpoint).isSome := both.2.started i task held
    rw [BootstrapRegistry.getCert] at missing
    rw [missing] at cached
    cases cached

/-- A device is approved after its certificate was read; its write phase is
about to send DELETE /1. -/
def eraseWithCert : List Action := Peer.approach "mower" Peer.genuine ++ Peer.advance 0 2

theorem erased_with_certificate_after_approval :
    ∃ s, (serverMachine Peer.env).exec (fun s action => StartsWithCert s.core action)
        Peer.server eraseWithCert = some s ∧
      (s.phases.get? 0).any (fun task => task.pc matches .send .deleteServer ..) ∧
      Provisionable s := by
  obtain ⟨s, ran, reached, ends⟩ := (serverMachine Peer.env).exec_reaches
    (fun s action => StartsWithCert s.core action) Peer.server eraseWithCert
    (fun s => (s.phases.get? 0).any (fun task => task.pc matches .send .deleteServer ..))
    ⟨_, _, _, _, _, rfl⟩ (by decide +kernel)
  exact ⟨s, ran, ends, erased_with_certificate reached⟩

/-- The user approves while GET /0/0 is unanswered, and the next POST /bs
starts the write phase. -/
def eraseWithoutCert : List Action :=
  Peer.deliver (Peer.post "bs" "mower") 6 ++ .includeDevice 1 ::
    Peer.deliver (Peer.post "bs" "mower") 5 ++ Peer.advance 0 2

/-- The first three requests are sent and acknowledged, and step 4 begins. -/
def upToStepFour : List Action :=
  Peer.advance 0 1 ++
    Peer.deliver (Peer.ack 0x80000001 (.response .deleted)) 2 ++ Peer.advance 0 4 ++
    Peer.deliver (Peer.ack 0x80000002 (.response .changed)) 2 ++ Peer.advance 0 4 ++
    Peer.deliver (Peer.ack 0x80000003 (.response .deleted)) 2 ++ Peer.advance 0 2

/-- The phase is about to send DELETE /1. -/
private def Erasing : PhasePc → Bool
  | .send .deleteServer _ _ _ _ => true
  | _ => false

private theorem erasing_pc {pc : PhasePc} (erasing : Erasing pc) :
    ∃ token channel packet attempt, pc = .send .deleteServer token channel packet attempt := by
  unfold Erasing at erasing
  split at erasing
  · exact ⟨_, _, _, _, rfl⟩
  · cases erasing

/-- DELETE /1 is then sent without a certificate, and once /1 and /0 are erased
the phase stops for want of it. -/
theorem erased_without_certificate :
    (∃ s, (serverMachine Peer.env).exec Machine.always Peer.server eraseWithoutCert = some s ∧
      ¬ Provisionable s) ∧
    ∃ s, (serverMachine Peer.env).exec Machine.always Peer.server
        (eraseWithoutCert ++ upToStepFour) = some s ∧
      .ended 0 "mower" (.error (.bootstrap "device pubkey not in cache")) ∈ s.log := by
  constructor
  · obtain ⟨s, ran, -, ends⟩ := (serverMachine Peer.env).exec_reaches Machine.always Peer.server
      eraseWithoutCert
      (fun s => (s.phases.get? 0).any fun task => Erasing task.pc && !s.boot.hasCert task.endpoint)
      ⟨_, _, _, _, _, rfl⟩ (by decide +kernel)
    refine ⟨s, ran, fun provisionable => ?_⟩
    simp only [Option.any_eq_true, Bool.and_eq_true, Bool.not_eq_true'] at ends
    obtain ⟨task, held, erasing, missing⟩ := ends
    obtain ⟨token, channel, packet, attempt, pc⟩ := erasing_pc erasing
    cases missing.symm.trans (provisionable.delete 0 task token channel packet attempt held pc)
  · obtain ⟨s, ran, -, ends⟩ := (serverMachine Peer.env).exec_reaches Machine.always Peer.server
      (eraseWithoutCert ++ upToStepFour)
      (fun s => decide (.ended 0 "mower" (.error (.bootstrap "device pubkey not in cache")) ∈ s.log))
      ⟨_, _, _, _, _, rfl⟩ (by decide +kernel)
    exact ⟨s, ran, of_decide_eq_true ends⟩

end Lwm2mServer.Certificates
