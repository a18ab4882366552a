import Lwm2mServer.PhaseHistory

/-! Approvals and the write phases they start: how many there are, which
device an announced id stands for, and when an approval given during a write
phase makes the next one start by itself. -/
namespace Lwm2mServer.Consent
open Library

/-- The endpoint whose approval the receive loop has seen and not consumed. -/
def consuming : Recv → Option String
  | .consume endpoint _ _ => some endpoint
  | _ => none

/-- The endpoint whose approval is consumed and whose write phase is about to
be spawned. -/
def starting : Recv → Option String
  | .acknowledge endpoint _ _ => some endpoint
  | _ => none

theorem consuming_plain {recv : Recv} (plain : recv.Plain) : consuming recv = none := by
  cases recv <;> first | rfl | cases plain

theorem starting_plain {recv : Recv} (plain : recv.Plain) : starting recv = none := by
  cases recv <;> first | rfl | cases plain

/-- The events that grant an approval or start a phase. -/
def Grants : Event → Bool
  | .approved .. | .started .. => true
  | _ => false

variable {env : Env} {c next : Core} {action : Action}

/-- A step seen from the approvals: it finds, consumes, uses or grants one, or
has nothing to do with them. -/
theorem consent_cases (moved : Transition env c action next) :
    (next.boot.approved = c.boot.approved ∧
      (next.recv = c.recv ∨ consuming next.recv = none ∧ starting next.recv = none) ∧
      ∃ events, next.log = events ++ c.log ∧ ∀ event ∈ events, Grants event = false) ∨
    (∃ endpoint packet addr, endpoint ∈ c.boot.approved ∧
      next = { c with recv := .consume endpoint packet addr }) ∨
    (∃ endpoint packet addr, c.recv = .consume endpoint packet addr ∧
      next = { c with
        boot := { c.boot with approved := c.boot.approved.erase endpoint }
        recv := .acknowledge endpoint packet addr
        log := .consumed endpoint :: c.log }) ∨
    (∃ endpoint packet addr serverUri, c.recv = .acknowledge endpoint packet addr ∧
      next = { c with
        recv := .idle
        phases := c.phases.spawn ⟨endpoint, addr, serverUri, .alloc .deleteServer []⟩
        log := .started c.phases.count endpoint :: c.log }) ∨
    (∃ id endpoint, action = .includeDevice id ∧
      c.boot.includableById.lookup id = some endpoint ∧
      next = { c with
        boot := { c.boot with approved := insert endpoint c.boot.approved }
        log := .approved id endpoint :: c.log }) := by
  cases moved with
  | findApproved _ approved => exact Or.inr (Or.inl ⟨_, _, _, approved, rfl⟩)
  | consume position => exact Or.inr (Or.inr (Or.inl ⟨_, _, _, position, rfl⟩))
  | startPhase position => exact Or.inr (Or.inr (Or.inr (Or.inl ⟨_, _, _, _, position, rfl⟩)))
  | approve assigned => exact Or.inr (Or.inr (Or.inr (Or.inr ⟨_, _, rfl, assigned, rfl⟩)))
  | quiet moves minor =>
    refine Or.inl ⟨rfl, ?_, _, rfl, minor_events minor fun _ _ => rfl⟩
    rcases moves with same | ⟨plain, -⟩
    · exact Or.inl same
    · exact Or.inr ⟨consuming_plain plain, starting_plain plain⟩
  | phase held move =>
    refine Or.inl ?_
    cases move <;> exact ⟨rfl, Or.inl rfl, _, rfl, by simp [Grants]⟩
  | missCert | reject => exact Or.inl ⟨rfl, Or.inr ⟨rfl, rfl⟩, [], rfl, fun _ member => by cases member⟩
  | expire => exact Or.inl ⟨rfl, Or.inl rfl, [], rfl, fun _ member => by cases member⟩
  | exclude => exact Or.inl ⟨rfl, Or.inl rfl, [_], rfl, List.forall_mem_singleton.mpr rfl⟩
  | _ => exact Or.inl ⟨rfl, Or.inr ⟨rfl, rfl⟩, [_], rfl, List.forall_mem_singleton.mpr rfl⟩

/-! ## One approval for each write phase -/

/-- How many write phases were started for an endpoint. -/
def starts (endpoint : String) (log : List Event) : Nat :=
  log.countP fun
    | .started _ other => other = endpoint
    | _ => false

/-- How many calls of `approve_inclusion` returned an endpoint. -/
def approvals (endpoint : String) (log : List Event) : Nat :=
  log.countP fun
    | .approved _ other => other = endpoint
    | _ => false

/-- Every start is paid for by an approval of its own; so is an approval that
is pending or just consumed. -/
structure Covered (c : Core) : Prop where
  paid : ∀ endpoint, starts endpoint c.log + (if starting c.recv = some endpoint then 1 else 0) +
    (if endpoint ∈ c.boot.approved then 1 else 0) ≤ approvals endpoint c.log
  pending : ∀ endpoint, consuming c.recv = some endpoint → endpoint ∈ c.boot.approved

private theorem starts_append {events log : List Event} {endpoint : String}
    (plain : ∀ event ∈ events, Grants event = false) :
    starts endpoint (events ++ log) = starts endpoint log := by
  rw [starts, List.countP_append, List.countP_eq_zero.mpr, Nat.zero_add, starts]
  intro event member counted
  have granted := plain event member
  cases event <;> first | cases counted | cases granted

private theorem approvals_append {events log : List Event} {endpoint : String}
    (plain : ∀ event ∈ events, Grants event = false) :
    approvals endpoint (events ++ log) = approvals endpoint log := by
  rw [approvals, List.countP_append, List.countP_eq_zero.mpr, Nat.zero_add, approvals]
  intro event member counted
  have granted := plain event member
  cases event <;> first | cases counted | cases granted

theorem covered_initial (initial : c.Initial) : Covered c := by
  obtain ⟨seed, serverUri, included, rfl⟩ := initial
  constructor
  · intro endpoint
    simp [starts, approvals, starting, BootstrapRegistry.new, BootstrapRegistry.loadIncluded]
  · intro endpoint pending
    cases pending

theorem covered_step (covered : Covered c) (moved : Transition env c action next) : Covered next := by
  rcases consent_cases moved with ⟨approved, recv, events, log, plain⟩ |
    ⟨endpoint, packet, addr, approved, rfl⟩ | ⟨endpoint, packet, addr, position, rfl⟩ |
    ⟨endpoint, packet, addr, serverUri, position, rfl⟩ | ⟨id, endpoint, -, assigned, rfl⟩
  · constructor
    · intro other
      have before := covered.paid other
      rw [approved, log, starts_append plain, approvals_append plain]
      rcases recv with same | ⟨-, none⟩
      · rw [same]
        exact before
      · rw [none]
        simp only [reduceCtorEq, if_false]
        omega
    · intro other pending
      rw [approved]
      rcases recv with same | ⟨none, -⟩
      · exact covered.pending other (same ▸ pending)
      · rw [none] at pending
        cases pending
  · constructor
    · intro other
      have before := covered.paid other
      simp only [starting, reduceCtorEq, if_false] at before ⊢
      omega
    · intro other pending
      cases pending
      exact approved
  · have held := covered.pending endpoint (by rw [position]; rfl)
    constructor
    · intro other
      have before := covered.paid other
      simp only [position, starting, reduceCtorEq, if_false] at before
      simp only [starting, starts, approvals, List.countP_cons, Option.some.injEq,
        Finset.mem_erase] at before ⊢
      by_cases same : endpoint = other
      · subst same
        simp only [held, if_true] at before
        simp
        omega
      · simp only [same, if_false, Ne.symm same, ne_eq, not_false_eq_true, true_and,
          Bool.false_eq_true]
        omega
    · intro other pending
      cases pending
  · constructor
    · intro other
      have before := covered.paid other
      simp only [position, starting, Option.some.injEq] at before
      simp only [starting, starts, approvals, List.countP_cons, reduceCtorEq, if_false,
        Bool.false_eq_true, decide_eq_true_eq] at before ⊢
      omega
    · intro other pending
      cases pending
  · constructor
    · intro other
      have before := covered.paid other
      simp only [starts, approvals, List.countP_cons, Finset.mem_insert, Bool.false_eq_true, if_false,
        decide_eq_true_eq] at before ⊢
      by_cases same : endpoint = other
      · subst same
        simp only [true_or, if_true]
        omega
      · simp only [same, Ne.symm same, false_or, if_false]
        omega
    · intro other pending
      exact Finset.mem_insert_of_mem (covered.pending other pending)

theorem reached_covered {s : Server} (reached : (serverMachine env).Reaches Machine.always s) :
    Covered s.core :=
  core_invariant Machine.always Covered reached (fun _ => covered_initial)
    fun _ _ _ covered _ moved => covered_step covered moved

/-! ## What an announced id stands for -/

/-- The id that `ensure_includable_id` assigned in an event. -/
def assigned : Event → Option UInt32
  | .announced _ id true => some id
  | _ => none

/-- The ids in the order they are assigned; the counter wraps. -/
def includableId (n : Nat) : UInt32 := 1 + UInt32.ofNat n

theorem includableId_distinct (first second : Nat) (below : first < 2 ^ 32) (below' : second < 2 ^ 32)
    (same : includableId first = includableId second) : first = second := by
  have equal : (1 + UInt32.ofNat first).toNat = (1 + UInt32.ofNat second).toNat :=
    congrArg UInt32.toNat same
  simp only [UInt32.toNat_add, UInt32.toNat_ofNat', UInt32.reduceToNat] at equal
  omega

/-- Both maps hold ids that were assigned to the endpoint they belong to. -/
structure IdsKnown (c : Core) : Prop where
  counter : c.boot.nextIncludableId = includableId (issues assigned c.log)
  numbered : Numbered assigned includableId c.log
  byId : ∀ id endpoint, c.boot.includableById.lookup id = some endpoint →
    .announced endpoint id true ∈ c.log
  byEndpoint : ∀ id endpoint, c.boot.includableIds.lookup endpoint = some id →
    .announced endpoint id true ∈ c.log
  known : ∀ id endpoint fresh, .announced endpoint id fresh ∈ c.log →
    .announced endpoint id true ∈ c.log

/-- A step seen from the includable ids. -/
theorem ids_cases (moved : Transition env c action next) :
    (next.boot.nextIncludableId = c.boot.nextIncludableId ∧
      (∀ id endpoint, next.boot.includableById.lookup id = some endpoint →
        c.boot.includableById.lookup id = some endpoint) ∧
      (∀ id endpoint, next.boot.includableIds.lookup endpoint = some id →
        c.boot.includableIds.lookup endpoint = some id) ∧
      ∃ events, next.log = events ++ c.log ∧ (∀ event ∈ events, assigned event = none) ∧
        ∀ endpoint id fresh, .announced endpoint id fresh ∈ events →
          c.boot.includableIds.lookup endpoint = some id) ∨
    (∃ endpoint, next.boot.nextIncludableId = c.boot.nextIncludableId + 1 ∧
      next.boot.includableById = c.boot.includableById.insert c.boot.nextIncludableId endpoint ∧
      next.boot.includableIds = c.boot.includableIds.insert endpoint c.boot.nextIncludableId ∧
      next.log = .announced endpoint c.boot.nextIncludableId true :: c.log) := by
  cases moved with
  | announceFresh => exact Or.inr ⟨_, rfl, rfl, rfl, rfl⟩
  | announceKnown _ known =>
    refine Or.inl ⟨rfl, fun _ _ held => held, fun _ _ held => held, [_], rfl, by simp [assigned], ?_⟩
    intro endpoint id fresh member
    cases List.mem_singleton.mp member
    exact known
  | quiet _ minor =>
    refine Or.inl ⟨rfl, fun _ _ held => held, fun _ _ held => held, _, rfl, ?_, ?_⟩
    · exact minor_events minor fun _ _ => rfl
    · intro endpoint id fresh member
      cases minor _ member
  | phase held move =>
    refine Or.inl ?_
    cases move with
    | release pc released =>
      have ids := congrArg BootstrapRegistry.includableIds released
      have byId := congrArg BootstrapRegistry.includableById released
      dsimp only at ids byId
      subst ids byId
      unfold BootstrapRegistry.removeIncludableId
      split
      · exact ⟨rfl, fun _ _ held => held, fun _ _ held => held, [], rfl, by simp, by simp⟩
      · refine ⟨rfl, fun id endpoint held => ?_, fun id endpoint held => ?_, [], rfl, by simp, by simp⟩
        · rw [Table.lookup_erase_if] at held
          split at held
          · cases held
          · exact held
        · rw [Table.lookup_erase_if] at held
          split at held
          · cases held
          · exact held
    | _ => exact ⟨rfl, fun _ _ held => held, fun _ _ held => held, _, rfl, by simp [assigned], by simp⟩
  | findApproved | missCert | reject | expire =>
    exact Or.inl ⟨rfl, fun _ _ held => held, fun _ _ held => held, [], rfl, by simp, by simp⟩
  | _ =>
    exact Or.inl ⟨rfl, fun _ _ held => held, fun _ _ held => held, [_], rfl, by simp [assigned],
      by simp⟩

theorem idsKnown_initial (initial : c.Initial) : IdsKnown c := by
  obtain ⟨seed, serverUri, included, rfl⟩ := initial
  constructor
  · rfl
  · exact ⟨nofun, trivial⟩
  · intro id endpoint held
    cases held
  · intro id endpoint held
    cases held
  · intro id endpoint fresh member
    cases List.mem_singleton.mp member

theorem idsKnown_step (ids : IdsKnown c) (moved : Transition env c action next) : IdsKnown next := by
  rcases ids_cases moved with ⟨counter, byId, byEndpoint, events, log, none, known⟩ |
    ⟨endpoint, counter, byId, byEndpoint, log⟩
  · have later {event : Event} (member : event ∈ c.log) : event ∈ next.log := by
      rw [log]
      exact List.mem_append_right events member
    constructor
    · rw [counter, log, issues_append_none none]
      exact ids.counter
    · rw [log]
      exact ids.numbered.append_none none
    · intro id endpoint held
      exact later (ids.byId id endpoint (byId id endpoint held))
    · intro id endpoint held
      exact later (ids.byEndpoint id endpoint (byEndpoint id endpoint held))
    · intro id endpoint fresh member
      rw [log] at member
      rcases List.mem_append.mp member with added | old
      · exact later (ids.byEndpoint id endpoint (known endpoint id fresh added))
      · exact later (ids.known id endpoint fresh old)
  · have later {event : Event} (member : event ∈ c.log) : event ∈ next.log := by
      rw [log]
      exact List.mem_cons_of_mem _ member
    have top : .announced endpoint c.boot.nextIncludableId true ∈ next.log := by
      rw [log]
      exact List.mem_cons_self
    constructor
    · have one : assigned (.announced endpoint c.boot.nextIncludableId true) =
          some c.boot.nextIncludableId := rfl
      rw [counter, log, issues_cons_some one, ids.counter]
      simp only [includableId, UInt32.ofNat_add, UInt32.add_assoc]
      rfl
    · rw [log]
      refine ⟨fun k held => ?_, ids.numbered⟩
      cases held
      exact ids.counter
    · intro id other held
      rw [byId, Table.lookup_insert_if] at held
      split at held
      · rename_i same
        cases held
        rw [same]
        exact top
      · exact later (ids.byId id other held)
    · intro id other held
      rw [byEndpoint, Table.lookup_insert_if] at held
      split at held
      · rename_i same
        cases held
        rw [same]
        exact top
      · exact later (ids.byEndpoint id other held)
    · intro id other fresh member
      rw [log] at member
      rcases List.mem_cons.mp member with same | old
      · cases same
        exact top
      · exact later (ids.known id other fresh old)

theorem reached_idsKnown {s : Server} (reached : (serverMachine env).Reaches Machine.always s) :
    IdsKnown s.core :=
  core_invariant Machine.always IdsKnown reached (fun _ => idsKnown_initial)
    fun _ _ _ ids _ moved => idsKnown_step ids moved

/-- An approval was given with an id that had been assigned to its endpoint. -/
def ApprovedById (event : Event) (earlier : List Event) : Prop :=
  ∀ id endpoint, event = .approved id endpoint → .announced endpoint id true ∈ earlier

private theorem approvedById_step (ids : IdsKnown c) (every : EveryEvent ApprovedById c.log)
    (moved : Transition env c action next) : EveryEvent ApprovedById next.log := by
  rcases consent_cases moved with ⟨-, -, events, log, plain⟩ | ⟨endpoint, packet, addr, -, rfl⟩ |
    ⟨endpoint, packet, addr, -, rfl⟩ | ⟨endpoint, packet, addr, serverUri, -, rfl⟩ |
    ⟨id, endpoint, -, assigned, rfl⟩
  · rw [log]
    refine every.append fun event member earlier id endpoint same => ?_
    subst same
    cases plain _ member
  · exact every
  · exact ⟨nofun, every⟩
  · exact ⟨nofun, every⟩
  · refine ⟨fun id' endpoint' same => ?_, every⟩
    cases same
    exact ids.byId id endpoint assigned

theorem reached_approvedById {s : Server} (reached : (serverMachine env).Reaches Machine.always s) :
    EveryEvent ApprovedById s.log := by
  refine history_invariant reached ApprovedById (fun _ => nofun) ?_
  intro s action next before _ every moved
  exact approvedById_step (reached_idsKnown before) every moved

/-- What consent means for a history. -/
structure Consented (log : List Event) : Prop where
  /-- No more write phases were started for an endpoint than approvals given. -/
  covered : ∀ endpoint, starts endpoint log ≤ approvals endpoint log
  /-- Each approval used an id that was assigned to its endpoint before. -/
  approved : EveryEvent ApprovedById log
  /-- An id announced for one endpoint is never announced for another. -/
  exclusive : ∀ id endpoint other fresh fresh', .announced endpoint id fresh ∈ log →
    .announced other id fresh' ∈ log → endpoint = other

/-- **No inclusion without consent**, in every state of every run in which
fewer than `2 ^ 32` includable ids were assigned. -/
theorem started_with_consent {s : Server} (reached : (serverMachine env).Reaches Machine.always s)
    (few : issues assigned s.log < 2 ^ 32) : Consented s.log where
  covered endpoint := by
    have paid := (reached_covered reached).paid endpoint
    change starts endpoint s.log + _ + _ ≤ approvals endpoint s.log at paid
    omega
  approved := reached_approvedById reached
  exclusive id endpoint other fresh fresh' first second := by
    have ids := reached_idsKnown reached
    have first := ids.known id endpoint fresh first
    have second := ids.known id other fresh' second
    have same := ids.numbered.unique includableId_distinct (Nat.le_of_lt few) first second rfl rfl
    cases same
    rfl

/-- Two devices announce themselves; the second one is approved and starts. -/
def approveSecond : List Action :=
  Peer.deliver (Peer.post "bs" "pump") 6 ++ Peer.deliver (Peer.post "bs" "mower") 6 ++
    .includeDevice 2 :: Peer.deliver (Peer.post "bs" "mower") 5

theorem started_with_consent_of_second_device :
    ∃ s, (serverMachine Peer.env).exec Machine.always Peer.server approveSecond = some s ∧
      (issues assigned s.log < 2 ^ 32 ∧ starts "mower" s.log = 1 ∧ starts "pump" s.log = 0) ∧
      Consented s.log := by
  obtain ⟨s, ran, reached, ends⟩ := (serverMachine Peer.env).exec_reaches Machine.always
    Peer.server approveSecond
    (fun s => decide (issues assigned s.log < 2 ^ 32 ∧ starts "mower" s.log = 1 ∧
      starts "pump" s.log = 0))
    ⟨_, _, _, _, _, rfl⟩ (by decide +kernel)
  have facts := of_decide_eq_true ends
  exact ⟨s, ran, facts, started_with_consent reached facts.1⟩

end Lwm2mServer.Consent
