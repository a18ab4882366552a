import Mathlib.Algebra.GroupWithZero.Nat
import Lwm2mServer.WriteTokens

/-! The maps of the bootstrap registry, run call by call. `by_endpoint` indexes
the sessions in `by_token`, `includable_ids` the endpoints in
`includable_by_id`, and both pairs are changed by several methods. The history
has the tokens and ids that were handed out and the sessions that expired. -/
namespace Lwm2mServer.SessionIndexes
open Library BootstrapRegistry WriteTokens

inductive Event where
  /-- Of `begin`. -/
  | opened (token : Token)
  /-- Of `alloc_token_mid`. -/
  | lent (token : Token)
  /-- Of `ensure_includable_id`, for an endpoint that had no id. -/
  | listed (id : UInt32)
  | expired (token : Token)
  deriving DecidableEq

structure Sessions where
  boot : BootstrapRegistry
  history : List Event

/-- A call; `expire_stale` may find any sessions stale. -/
inductive Call where
  | begin (now : Instant) (endpoint : String)
  | complete (token : Token) (payload : Bytes)
  | expireStale (stale : Token → BootstrapSession → Bool)
  | allocTokenMid
  | registerWriteAck (token : Token)
  | completeWriteAck (token : Token) (success : Bool)
  | cancelWriteAck (token : Token)
  | ensureIncludableId (endpoint : String)
  | removeIncludableId (endpoint : String)

def staleTokens (r : BootstrapRegistry) (stale : Token → BootstrapSession → Bool) : List Token :=
  (r.byToken.entries.filter fun entry => stale entry.1 entry.2).map (·.1)

theorem expireStale_eq (r : BootstrapRegistry) (now : Instant) (maxSecs : Nat) :
    r.expireStale now maxSecs =
      (staleTokens r fun _ session => maxSecs < elapsedSecs now session.startedAt).foldl expireOne r :=
  rfl

def step (s : Sessions) : Call → Sessions
  | .begin now endpoint =>
    let (issued, boot) := s.boot.begin now endpoint
    ⟨boot, (issued.map fun issued => Event.opened issued.1).toList ++ s.history⟩
  | .complete token payload => { s with boot := (s.boot.complete token payload).2 }
  | .expireStale stale =>
    let tokens := staleTokens s.boot stale
    ⟨tokens.foldl expireOne s.boot, tokens.map .expired ++ s.history⟩
  | .allocTokenMid =>
    let (issued, boot) := s.boot.allocTokenMid
    ⟨boot, .lent issued.1 :: s.history⟩
  | .registerWriteAck token => { s with boot := (s.boot.registerWriteAck token).2 }
  | .completeWriteAck token success => { s with boot := (s.boot.completeWriteAck token success).2 }
  | .cancelWriteAck token => { s with boot := s.boot.cancelWriteAck token }
  | .ensureIncludableId endpoint =>
    let (id, boot) := s.boot.ensureIncludableId endpoint
    ⟨boot, if s.boot.includableIds.lookup endpoint = none then .listed id :: s.history else s.history⟩
  | .removeIncludableId endpoint => { s with boot := s.boot.removeIncludableId endpoint }

def machine : Machine Sessions Call where
  start s := ∃ seed serverUri included,
    s = ⟨(BootstrapRegistry.new seed serverUri).loadIncluded included, []⟩
  step s call := some (step s call)

def issuedToken : Event → Option Token
  | .opened token | .lent token => some token
  | _ => none

def issuedId : Event → Option UInt32
  | .listed id => some id
  | _ => none

/-- Channels are registered under tokens of `alloc_token_mid`. -/
def UnderLent (s : Sessions) : Call → Prop
  | .registerWriteAck token => .lent token ∈ s.history
  | _ => True

/-- Neither counter has gone round. -/
def Proper (s : Sessions) (call : Call) : Prop :=
  UnderLent s call ∧ issues issuedToken s.history < 2 ^ 32 ∧ issues issuedId s.history < 2 ^ 32

instance (s : Sessions) : (call : Call) → Decidable (UnderLent s call)
  | .registerWriteAck token => inferInstanceAs (Decidable (Event.lent token ∈ s.history))
  | .begin .. | .complete .. | .expireStale _ | .allocTokenMid | .completeWriteAck .. | .cancelWriteAck _
  | .ensureIncludableId _ | .removeIncludableId _ => isTrue trivial

instance (s : Sessions) (call : Call) : Decidable (Proper s call) :=
  inferInstanceAs (Decidable (UnderLent s call ∧ _ ∧ _))

/-- The ids in the order `ensure_includable_id` makes them. -/
def idAt (n : Nat) : UInt32 := 1 + UInt32.ofNat n

/-- The counters have handed out what the history says. -/
structure Counted (first : UInt32) (s : Sessions) : Prop where
  tokenCounter : s.boot.tokenCounter = first + UInt32.ofNat (issues issuedToken s.history)
  tokens : Numbered issuedToken (tokenAt first) s.history
  nextId : s.boot.nextIncludableId = idAt (issues issuedId s.history)
  ids : Numbered issuedId idAt s.history

/-- The maps agree with each other and with the history. -/
structure Sound (s : Sessions) : Prop where
  pending : Table.Indexes s.boot.byEndpoint s.boot.byToken (·.endpoint)
  includable : Table.Indexes s.boot.includableIds s.boot.includableById id
  opened : ∀ token session, s.boot.byToken.lookup token = some session →
    .opened token ∈ s.history ∧ .expired token ∉ s.history
  ended : ∀ token, .expired token ∈ s.history → .opened token ∈ s.history
  acks : ∀ token sender, s.boot.writeAcks.lookup token = some sender → .lent token ∈ s.history
  listed : ∀ i endpoint, s.boot.includableById.lookup i = some endpoint → .listed i ∈ s.history

variable {s : Sessions} {call : Call} {first : UInt32} {boot : BootstrapRegistry} {token : Token}
  {stale : Token → BootstrapSession → Bool}

/-! ## Counters -/

theorem idAt_distinct (m n : Nat) (below : m < 2 ^ 32) (below' : n < 2 ^ 32)
    (same : idAt m = idAt n) : m = n := by
  have equal := congrArg UInt32.toNat same
  simp only [idAt, UInt32.toNat_add, UInt32.toNat_ofNat'] at equal
  omega

/-- The next token was not handed out before. -/
private theorem Counted.token_new (counted : Counted first s)
    (few : issues issuedToken s.history < 2 ^ 32) {event : Event} (member : event ∈ s.history) :
    issuedToken event ≠ some (tokenOfId s.boot.tokenCounter) := by
  intro held
  rw [counted.tokenCounter] at held
  exact Numbered.fresh (tokenAt_distinct first) counted.tokens few member held rfl

private theorem Counted.id_new (counted : Counted first s)
    (few : issues issuedId s.history < 2 ^ 32) : .listed s.boot.nextIncludableId ∉ s.history := by
  intro member
  rw [counted.nextId] at member
  exact Numbered.fresh idAt_distinct counted.ids few member rfl rfl

private theorem ofNat_succ (first : UInt32) (n : Nat) :
    first + UInt32.ofNat n + 1 = first + UInt32.ofNat (n + 1) := by
  rw [UInt32.ofNat_add, UInt32.add_assoc]
  rfl

/-- A token is handed out. -/
private theorem Counted.issue (counted : Counted first s) {event : Event}
    (issued : issuedToken event = some (tokenOfId s.boot.tokenCounter)) (other : issuedId event = none)
    (counter : boot.tokenCounter = s.boot.tokenCounter + 1)
    (ids : boot.nextIncludableId = s.boot.nextIncludableId) : Counted first ⟨boot, event :: s.history⟩ where
  tokenCounter := by
    rw [issues_cons_some issued, counter, counted.tokenCounter, ofNat_succ]
  tokens := by
    refine ⟨fun k held => ?_, counted.tokens⟩
    rw [issued] at held
    cases held
    rw [tokenAt, counted.tokenCounter]
  nextId := by rw [issues_cons_none other, ids, counted.nextId]
  ids := by
    refine ⟨fun k held => ?_, counted.ids⟩
    rw [other] at held
    cases held

/-- An id is handed out. -/
private theorem Counted.list (counted : Counted first s)
    (counter : boot.tokenCounter = s.boot.tokenCounter)
    (nextId : boot.nextIncludableId = s.boot.nextIncludableId + 1) :
    Counted first ⟨boot, .listed s.boot.nextIncludableId :: s.history⟩ where
  tokenCounter := by rw [issues_cons_none rfl, counter, counted.tokenCounter]
  tokens := ⟨nofun, counted.tokens⟩
  nextId := by
    have listed : issuedId (.listed s.boot.nextIncludableId) = some s.boot.nextIncludableId := rfl
    rw [issues_cons_some listed, nextId, counted.nextId, idAt, ofNat_succ, idAt]
  ids := ⟨fun k held => (Option.some.inj held).symm.trans counted.nextId, counted.ids⟩

/-- No token and no id is handed out. -/
private theorem Counted.quiet (counted : Counted first s) {events : List Event}
    (tokens : ∀ event ∈ events, issuedToken event = none) (ids : ∀ event ∈ events, issuedId event = none)
    (counter : boot.tokenCounter = s.boot.tokenCounter)
    (nextId : boot.nextIncludableId = s.boot.nextIncludableId) :
    Counted first ⟨boot, events ++ s.history⟩ where
  tokenCounter := by rw [issues_append_none tokens, counter, counted.tokenCounter]
  tokens := counted.tokens.append_none tokens
  nextId := by rw [issues_append_none ids, nextId, counted.nextId]
  ids := counted.ids.append_none ids

/-! ## Expiry -/

/-- The loop of `expire_stale` takes out the sessions and touches nothing else. -/
private theorem expired_fields (tokens : List Token) (boot : BootstrapRegistry) :
    ∃ byToken byEndpoint, tokens.foldl expireOne boot = { boot with byToken, byEndpoint } := by
  induction tokens generalizing boot with
  | nil => exact ⟨boot.byToken, boot.byEndpoint, rfl⟩
  | cons token rest ih =>
    obtain ⟨byToken, byEndpoint, same⟩ := ih (boot.expireOne token)
    refine ⟨byToken, byEndpoint, ?_⟩
    rw [List.foldl_cons, same]
    unfold expireOne
    split <;> rfl

private theorem expired_pending (tokens : List Token) {boot : BootstrapRegistry}
    (pending : Table.Indexes boot.byEndpoint boot.byToken (·.endpoint)) :
    Table.Indexes (tokens.foldl expireOne boot).byEndpoint (tokens.foldl expireOne boot).byToken
      (·.endpoint) := by
  induction tokens generalizing boot with
  | nil => exact pending
  | cons token rest ih =>
    refine ih ?_
    unfold expireOne
    split
    · exact pending
    · rename_i session held
      exact pending.erase held

theorem expired_lookup (tokens : List Token) {boot : BootstrapRegistry} {session : BootstrapSession}
    (held : (tokens.foldl expireOne boot).byToken.lookup token = some session) :
    token ∉ tokens ∧ boot.byToken.lookup token = some session := by
  induction tokens generalizing boot with
  | nil => exact ⟨List.not_mem_nil, held⟩
  | cons first rest ih =>
    obtain ⟨later, kept⟩ := ih held
    unfold expireOne at kept
    split at kept
    · rename_i gone
      refine ⟨List.not_mem_cons_of_ne_of_not_mem ?_ later, kept⟩
      rintro rfl
      rw [gone] at kept
      cases kept
    · rw [Table.lookup_erase_if] at kept
      split at kept
      · cases kept
      · rename_i other
        exact ⟨List.not_mem_cons_of_ne_of_not_mem other later, kept⟩

private theorem mem_staleTokens (member : token ∈ staleTokens boot stale) :
    ∃ session, boot.byToken.lookup token = some session := by
  obtain ⟨⟨token, session⟩, entry, rfl⟩ := List.mem_map.mp member
  exact ⟨session, AList.mem_lookup_iff.mpr (List.mem_of_mem_filter entry)⟩

/-! ## One call -/

private theorem counted_step (counted : Counted first s) : Counted first (step s call) := by
  have same (boot : BootstrapRegistry) (counter : boot.tokenCounter = s.boot.tokenCounter)
      (nextId : boot.nextIncludableId = s.boot.nextIncludableId) : Counted first ⟨boot, s.history⟩ :=
    counted.quiet (fun event (member : event ∈ []) => by cases member)
      (fun event member => by cases member) counter nextId
  cases call with
  | begin now endpoint =>
    simp only [step, begin]
    split
    · exact same _ rfl rfl
    · exact counted.issue rfl rfl rfl rfl
  | complete token payload =>
    simp only [step, complete]
    split
    · exact same _ rfl rfl
    · exact same _ rfl rfl
  | expireStale stale =>
    obtain ⟨byToken, byEndpoint, fields⟩ := expired_fields (staleTokens s.boot stale) s.boot
    simp only [step, fields]
    refine counted.quiet ?_ ?_ rfl rfl
    · intro event member
      obtain ⟨token, -, rfl⟩ := List.mem_map.mp member
      rfl
    · intro event member
      obtain ⟨token, -, rfl⟩ := List.mem_map.mp member
      rfl
  | allocTokenMid => exact counted.issue rfl rfl rfl rfl
  | registerWriteAck token => exact same _ rfl rfl
  | completeWriteAck token success =>
    simp only [step, completeWriteAck]
    split
    · exact same _ rfl rfl
    · exact same _ rfl rfl
  | cancelWriteAck token => exact same _ rfl rfl
  | ensureIncludableId endpoint =>
    cases known : s.boot.includableIds.lookup endpoint with
    | some id =>
      simp only [step, ensureIncludableId, known, reduceCtorEq, if_false]
      exact same _ rfl rfl
    | none =>
      simp only [step, ensureIncludableId, known, if_true]
      exact counted.list rfl rfl
  | removeIncludableId endpoint =>
    simp only [step, removeIncludableId]
    split
    · exact same _ rfl rfl
    · exact same _ rfl rfl

/-- The history grows by an event that is no expiry. -/
private theorem Sound.grow (sound : Sound s) (event : Event) (kind : ∀ token, event ≠ .expired token)
    (pending : Table.Indexes boot.byEndpoint boot.byToken (·.endpoint))
    (includable : Table.Indexes boot.includableIds boot.includableById id)
    (opened : ∀ token session, boot.byToken.lookup token = some session →
      s.boot.byToken.lookup token = some session ∨ event = .opened token ∧ event ∉ s.history)
    (acks : boot.writeAcks = s.boot.writeAcks)
    (listed : ∀ i endpoint, boot.includableById.lookup i = some endpoint →
      s.boot.includableById.lookup i = some endpoint ∨ event = .listed i) :
    Sound ⟨boot, event :: s.history⟩ where
  pending := pending
  includable := includable
  opened token session held := by
    rcases opened token session held with before | ⟨rfl, new⟩
    · obtain ⟨began, still⟩ := sound.opened token session before
      exact ⟨List.mem_cons_of_mem _ began, List.not_mem_cons_of_ne_of_not_mem (kind token).symm still⟩
    · refine ⟨List.mem_cons_self, List.not_mem_cons_of_ne_of_not_mem nofun fun old => ?_⟩
      exact new (sound.ended token old)
  ended token member := by
    rcases List.mem_cons.mp member with same | old
    · exact absurd same.symm (kind token)
    · exact List.mem_cons_of_mem _ (sound.ended token old)
  acks token sender held := List.mem_cons_of_mem _ (sound.acks token sender (acks ▸ held))
  listed i endpoint held := by
    rcases listed i endpoint held with before | rfl
    · exact List.mem_cons_of_mem _ (sound.listed i endpoint before)
    · exact List.mem_cons_self

/-- Sessions expire. -/
private theorem Sound.expire (sound : Sound s) (stale : Token → BootstrapSession → Bool) :
    Sound (step s (.expireStale stale)) := by
  have pending := expired_pending (staleTokens s.boot stale) sound.pending
  have left (token : Token) (session : BootstrapSession)
      (held : ((staleTokens s.boot stale).foldl expireOne s.boot).byToken.lookup token = some session) :
      token ∉ staleTokens s.boot stale ∧ s.boot.byToken.lookup token = some session :=
    expired_lookup _ held
  obtain ⟨byToken, byEndpoint, fields⟩ := expired_fields (staleTokens s.boot stale) s.boot
  rw [fields] at pending left
  simp only [step, fields]
  have old {event : Event} (member : event ∈ s.history) :
      event ∈ (staleTokens s.boot stale).map .expired ++ s.history := List.mem_append_right _ member
  have expired {token : Token}
      (member : .expired token ∈ (staleTokens s.boot stale).map .expired ++ s.history) :
      token ∈ staleTokens s.boot stale ∨ .expired token ∈ s.history := by
    rcases List.mem_append.mp member with now | before
    · obtain ⟨other, listed, same⟩ := List.mem_map.mp now
      cases same
      exact Or.inl listed
    · exact Or.inr before
  exact {
    pending
    includable := sound.includable
    opened := by
      intro token session held
      obtain ⟨fresh, before⟩ := left token session held
      obtain ⟨began, still⟩ := sound.opened token session before
      exact ⟨old began, fun member => (expired member).elim fresh still⟩
    ended := by
      intro token member
      rcases expired member with now | before
      · obtain ⟨session, held⟩ := mem_staleTokens now
        exact old (sound.opened token session held).1
      · exact old (sound.ended token before)
    acks := fun token sender held => old (sound.acks token sender held)
    listed := fun i endpoint held => old (sound.listed i endpoint held) }

private theorem sound_step (sound : Sound s) (counted : Counted first s) (proper : Proper s call) :
    Sound (step s call) := by
  obtain ⟨lent, fewTokens, fewIds⟩ := proper
  cases call with
  | begin now endpoint =>
    simp only [step, begin]
    split
    · exact sound
    · rename_i unknown
      have new : .opened (tokenOfId s.boot.tokenCounter) ∉ s.history := fun member =>
        counted.token_new fewTokens member rfl
      have free : s.boot.byToken.lookup (tokenOfId s.boot.tokenCounter) = none := by
        cases held : s.boot.byToken.lookup (tokenOfId s.boot.tokenCounter) with
        | none => rfl
        | some session => exact absurd (sound.opened _ session held).1 new
      refine sound.grow (.opened (tokenOfId s.boot.tokenCounter)) (by simp) ?_ sound.includable ?_ rfl
        fun _ _ held => Or.inl held
      · exact sound.pending.insert ⟨endpoint, now, none⟩
          (Option.not_isSome_iff_eq_none.mp unknown) free
      · intro token session held
        rw [Table.lookup_insert_if] at held
        split at held
        · rename_i same
          exact Or.inr ⟨congrArg Event.opened same.symm, new⟩
        · exact Or.inl held
  | complete token payload =>
    simp only [step, complete]
    split
    · exact sound
    · rename_i session held
      exact { sound with
        pending := sound.pending.erase held
        opened := fun other found kept => sound.opened other found (Table.lookup_of_erase kept) }
  | expireStale stale => exact sound.expire stale
  | allocTokenMid =>
    exact sound.grow _ (by simp) sound.pending sound.includable (fun _ _ held => Or.inl held) rfl
      fun _ _ held => Or.inl held
  | registerWriteAck token =>
    exact { sound with
      acks := by
        intro other sender held
        simp only [step, registerWriteAck, Table.lookup_insert_if] at held
        split at held
        · rename_i same
          rw [same]
          exact lent
        · exact sound.acks other sender held }
  | completeWriteAck token success =>
    simp only [step, completeWriteAck]
    split
    · exact { sound with
        acks := fun other sender kept => sound.acks other sender (Table.lookup_of_erase kept) }
    · exact sound
  | cancelWriteAck token =>
    exact { sound with
      acks := fun other sender kept => sound.acks other sender (Table.lookup_of_erase kept) }
  | ensureIncludableId endpoint =>
    cases known : s.boot.includableIds.lookup endpoint with
    | some id =>
      simp only [step, ensureIncludableId, known, reduceCtorEq, if_false]
      exact sound
    | none =>
      simp only [step, ensureIncludableId, known, if_true]
      have free : s.boot.includableById.lookup s.boot.nextIncludableId = none := by
        cases held : s.boot.includableById.lookup s.boot.nextIncludableId with
        | none => rfl
        | some other => exact absurd (sound.listed _ other held) (counted.id_new fewIds)
      refine sound.grow _ (by simp) sound.pending (sound.includable.insert endpoint known free)
        (fun _ _ held => Or.inl held) rfl fun i other held => ?_
      rw [Table.lookup_insert_if] at held
      split at held
      · rename_i same
        exact Or.inr (congrArg Event.listed same.symm)
      · exact Or.inl held
  | removeIncludableId endpoint =>
    simp only [step, removeIncludableId]
    split
    · exact sound
    · rename_i i found
      obtain ⟨row, held, rfl⟩ := (sound.includable endpoint i).mp found
      exact { sound with
        includable := sound.includable.erase held
        listed := fun other name kept => sound.listed other name (Table.lookup_of_erase kept) }

/-! ## Runs -/

/-- A call hands out one token at most. -/
private theorem issues_step : issues issuedToken (step s call).history ≤ issues issuedToken s.history + 1 := by
  have one (event : Event) :
      issues issuedToken (event :: s.history) ≤ issues issuedToken s.history + 1 := by
    cases issued : issuedToken event with
    | none => exact Nat.le_of_lt (Nat.lt_succ_of_le (Nat.le_of_eq (issues_cons_none issued)))
    | some token => exact Nat.le_of_eq (issues_cons_some issued)
  cases call with
  | begin now endpoint =>
    simp only [step, begin]
    split
    · exact Nat.le_succ _
    · exact one _
  | expireStale stale =>
    refine Nat.le_trans (Nat.le_of_eq (issues_append_none fun event member => ?_)) (Nat.le_succ _)
    obtain ⟨token, -, rfl⟩ := List.mem_map.mp member
    rfl
  | allocTokenMid => exact one _
  | ensureIncludableId endpoint =>
    simp only [step]
    split
    · exact one _
    · exact Nat.le_succ _
  | _ => exact Nat.le_succ _

/-- What every run keeps. -/
private structure Kept (s : Sessions) : Prop where
  counted : ∃ first, Counted first s
  few : issues issuedToken s.history ≤ 2 ^ 32
  sound : Sound s

private theorem reaches_kept (reached : machine.Reaches Proper s) : Kept s := by
  refine reached.invariant Kept ?_ ?_
  · rintro _ ⟨seed, serverUri, included, rfl⟩
    exact {
      counted := ⟨_, (UInt32.add_zero _).symm, trivial, rfl, trivial⟩
      few := Nat.zero_le _
      sound := {
        pending := Table.indexes_empty
        includable := Table.indexes_empty
        opened := nofun
        ended := nofun
        acks := nofun
        listed := nofun } }
  · rintro s call _ - ⟨⟨first, counted⟩, few, sound⟩ proper ⟨⟩
    exact ⟨⟨first, counted_step counted⟩, Nat.le_trans issues_step proper.2.1,
      sound_step sound counted proper⟩

/-- A token is not handed out by both `begin` and `alloc_token_mid`. -/
private theorem Kept.opened_not_lent (kept : Kept s) (opened : .opened token ∈ s.history) :
    .lent token ∉ s.history := by
  intro lent
  obtain ⟨first, counted⟩ := kept.counted
  cases Numbered.unique (tokenAt_distinct first) counted.tokens kept.few opened lent rfl rfl

/-! ## The indexes -/

/-- The pairs of maps are inverse to each other, with what follows from it. -/
structure Inverse (s : Sessions) : Prop where
  sessions : ∀ endpoint token, s.boot.byEndpoint.lookup endpoint = some token ↔
    ∃ session, s.boot.byToken.lookup token = some session ∧ session.endpoint = endpoint
  includable : ∀ endpoint i, s.boot.includableIds.lookup endpoint = some i ↔
    s.boot.includableById.lookup i = some endpoint
  alone : ∀ token token' session session', s.boot.byToken.lookup token = some session →
    s.boot.byToken.lookup token' = some session' → session.endpoint = session'.endpoint → token = token'
  begins : ∀ now endpoint, (s.boot.begin now endpoint).1 = none ↔
    ∃ token session, s.boot.byToken.lookup token = some session ∧ session.endpoint = endpoint
  apart : ∀ token, ¬((s.boot.byToken.lookup token).isSome ∧ (s.boot.writeAcks.lookup token).isSome)
  late : ∀ token, .expired token ∈ s.history →
    (∀ payload, s.boot.complete token payload = (none, s.boot)) ∧
      ∀ success, s.boot.completeWriteAck token success = (none, s.boot)

/-- **Both pairs of maps stay inverse**, in every run. -/
theorem indexes_inverse (reached : machine.Reaches Proper s) : Inverse s := by
  have kept := reaches_kept reached
  have sound := kept.sound
  have noAck (token : Token) (opened : .opened token ∈ s.history) :
      s.boot.writeAcks.lookup token = none := by
    cases held : s.boot.writeAcks.lookup token with
    | none => rfl
    | some sender => exact absurd (sound.acks token sender held) (kept.opened_not_lent opened)
  constructor
  · exact sound.pending
  · intro endpoint i
    rw [sound.includable]
    simp
  · exact fun token token' session session' held held' same => sound.pending.unique held held' same
  · intro now endpoint
    rw [begin]
    split
    · rename_i known
      obtain ⟨token, found⟩ := Option.isSome_iff_exists.mp known
      exact iff_of_true rfl ⟨token, (sound.pending endpoint token).mp found⟩
    · rename_i unknown
      refine iff_of_false (by simp) ?_
      rintro ⟨token, pending⟩
      exact unknown (Option.isSome_of_eq_some ((sound.pending endpoint token).mpr pending))
  · rintro token ⟨session, ack⟩
    obtain ⟨session, held⟩ := Option.isSome_iff_exists.mp session
    rw [noAck token (sound.opened token session held).1] at ack
    cases ack
  · intro token expired
    have gone : s.boot.byToken.lookup token = none := by
      cases held : s.boot.byToken.lookup token with
      | none => rfl
      | some session => exact absurd expired (sound.opened token session held).2
    constructor
    · intro payload
      rw [complete, gone]
    · intro success
      rw [completeWriteAck, noAck token (sound.ended token expired)]

/-- A GET /0/0 expires while a write step waits, and another one begins. -/
theorem indexes_inverse_expired : ∃ s, machine.Reaches Proper s ∧ Inverse s ∧
    (s.boot.writeAcks.lookup (tokenOfId 0x80000001)).isSome ∧
    s.boot.byEndpoint.lookup "mower" = some (tokenOfId 0x80000002) ∧
    s.boot.complete (tokenOfId 0x80000000) [] = (none, s.boot) := by
  obtain ⟨s, -, reached, seen⟩ := machine.exec_reaches Proper
    ⟨(BootstrapRegistry.new 0 none).loadIncluded [], []⟩
    [.begin 0 "mower", .allocTokenMid, .registerWriteAck (tokenOfId 0x80000001),
      .expireStale fun _ _ => true, .begin 0 "mower", .ensureIncludableId "mower"]
    (fun s => decide ((s.boot.writeAcks.lookup (tokenOfId 0x80000001)).isSome ∧
      s.boot.byEndpoint.lookup "mower" = some (tokenOfId 0x80000002) ∧
      .expired (tokenOfId 0x80000000) ∈ s.history)) ⟨0, none, [], rfl⟩ (by decide +kernel)
  obtain ⟨waits, begun, expired⟩ := of_decide_eq_true seen
  have inverse := indexes_inverse reached
  exact ⟨s, reached, inverse, waits, begun, (inverse.late _ expired).1 []⟩

end Lwm2mServer.SessionIndexes
