import Lwm2mServer.Transitions

/-! Where the receive loop goes, said once for all its positions. A handler
starts from `handlePacket`; what it carries along afterwards comes from there. -/
namespace Lwm2mServer.RecvSteps
open Library

/-- A position inside a handler that carries nothing on from the packet that
later steps look up. -/
def inner : Recv → Bool
  | .idle | .askApproved .. | .consume .. | .acknowledge .. | .askCert .. | .begin .. | .sendGet ..
  | .dispatchReset .. | .scheduleRemoval .. | .drain _ | .ackValidate .. | .ackReject _
  | .rstWrite .. | .rstBlock .. | .rstInFlight .. => true
  | _ => false

/-- The steps of the receive loop by their positions. -/
inductive Goes (env : Env) (s : Server) : Recv → Prop where
  | online (position : s.recv = .touch packet addr) : Goes env s (.reportOnline endpoint packet addr)
  | handle (position : s.recv = .touch packet addr ∨
      ∃ endpoint, s.recv = .reportOnline endpoint packet addr) :
      Goes env s (handlePacket env packet addr)
  | resume (position : s.recv = .respond response addr rest) : Goes env s (rest.resume addr)
  | registered (position : s.recv = .register endpoint reg packet addr) :
      Goes env s (.respond response addr (.decideInclusion endpoint))
  | reporter (position : s.recv = .findReporter payload addr)
      (found : s.devices.endpointByAddr addr = some (some endpoint)) :
      Goes env s (.findVersions payload addr)
  | built (position : s.recv = .findVersions payload addr)
      (made : env.buildDevicePayload payload versions = some report) :
      Goes env s (.mergeReport report addr)
  | pending (position : s.recv = .ackWrite packet addr) : Goes env s (.ackPending packet addr)
  | complete (position : s.recv = .ackPending packet addr) : Goes env s (.ackComplete packet)
  | block (position : s.recv = .ackPending packet addr) : Goes env s (.ackBlock packet addr)
  | inFlight (position : s.recv = .ackBlock packet addr) : Goes env s (.ackInFlight packet addr)
  | inside (carries : inner recv = true) : Goes env s recv

variable {env : Env} {s next : Server} {choice : Choice}

theorem goes_recv (ran : s.recvStep env choice = some next) : Goes env s next.recv := by
  cases position : s.recv with
  | idle =>
    simp only [Server.recvStep, position] at ran
    cases ran
  | touch packet addr =>
    simp only [Server.recvStep, position] at ran
    obtain ⟨⟨came, devices⟩, -, ran⟩ := Option.bind_eq_some_iff.mp ran
    cases ran
    cases came with
    | none => exact .handle (Or.inl position)
    | some endpoint => exact .online position
  | reportOnline endpoint packet addr =>
    simp only [Server.recvStep, position] at ran
    cases ran
    exact .handle (Or.inr ⟨endpoint, position⟩)
  | respond response addr rest =>
    simp only [Server.recvStep, position] at ran
    cases ran
    dsimp only
    split
    · exact .resume position
    · exact .inside rfl
  | register endpoint reg packet addr =>
    simp only [Server.recvStep, position] at ran
    obtain ⟨result, -, ran⟩ := Option.bind_eq_some_iff.mp ran
    cases ran
    exact .registered position
  | findReporter payload addr =>
    simp only [Server.recvStep, position] at ran
    obtain ⟨found, looked, ran⟩ := Option.bind_eq_some_iff.mp ran
    cases ran
    cases found with
    | none => exact .inside rfl
    | some endpoint => exact .reporter position looked
  | findVersions payload addr =>
    simp only [Server.recvStep, position] at ran
    obtain ⟨versions, -, ran⟩ := Option.bind_eq_some_iff.mp ran
    cases ran
    dsimp only
    split
    · rename_i report made
      exact .built position made
    · exact .inside rfl
  | ackWrite packet addr =>
    simp only [Server.recvStep, position] at ran
    split at ran <;> cases ran
    · exact .inside rfl
    · exact .pending position
  | ackPending packet addr =>
    simp only [Server.recvStep, position] at ran
    cases ran
    dsimp only
    split
    · exact .complete position
    · exact .block position
  | ackBlock packet addr =>
    simp only [Server.recvStep, position] at ran
    split at ran <;> cases ran
    · exact .inside rfl
    · exact .inFlight position
  | ackInFlight packet addr | rstInFlight packet addr =>
    simp only [Server.recvStep, position] at ran
    cases ran
    unfold Server.answer
    split <;> exact .inside rfl
  | drain | mergeReport =>
    simp only [Server.recvStep, position] at ran
    obtain ⟨result, -, ran⟩ := Option.bind_eq_some_iff.mp ran
    cases ran
    exact .inside rfl
  | begin | ackComplete | ackValidate | askIncluded | rstWrite =>
    simp only [Server.recvStep, position] at ran
    split at ran <;> cases ran <;> exact .inside rfl
  | acknowledge =>
    simp only [Server.recvStep, position] at ran
    split at ran
    · split at ran <;> cases ran <;> exact .inside rfl
    · cases ran
      exact .inside rfl
  | askApproved | askCert | rstPending =>
    simp only [Server.recvStep, position] at ran
    cases ran
    dsimp only
    split <;> exact .inside rfl
  | _ =>
    simp only [Server.recvStep, position] at ran
    cases ran
    exact .inside rfl

/-- What the receive loop leaves alone. -/
theorem recvStep_frame (ran : s.recvStep env choice = some next) :
    next.clock = s.clock ∧ next.exclusions = s.exclusions := by
  have answered (s : Server) (op : Option PendingOperation) (result : LwM2mResult) :
      (s.answer op result).clock = s.clock ∧ (s.answer op result).exclusions = s.exclusions := by
    cases op <;> exact ⟨rfl, rfl⟩
  unfold Server.recvStep at ran
  split at ran
  case h_1 => cases ran
  case h_8 =>
    split at ran
    · split at ran <;> cases ran <;> exact ⟨rfl, rfl⟩
    · cases ran
      exact ⟨rfl, rfl⟩
  case h_22 | h_30 =>
    dsimp only at ran
    split at ran <;> cases ran <;> exact ⟨rfl, rfl⟩
  case h_28 | h_32 =>
    cases ran
    exact answered ..
  all_goals first
    | cases ran
      exact ⟨rfl, rfl⟩
    | obtain ⟨_, -, ran⟩ := Option.bind_eq_some_iff.mp ran
      cases ran
      exact ⟨rfl, rfl⟩
    | split at ran <;> cases ran <;> exact ⟨rfl, rfl⟩

/-- The other tasks leave the receive loop where it is, unless a packet
arrives. -/
theorem recv_elsewhere {action : Action} (ran : s.step env action = some next)
    (elsewhere : ∀ choice, action ≠ .recv choice) :
    next.recv = s.recv ∨ (s.recv = .idle ∧ ∃ packet addr, next.recv = .touch packet addr) := by
  by_cases phase : ∃ i choice, action = .phase i choice
  · obtain ⟨i, choice, rfl⟩ := phase
    obtain ⟨task, -, ran⟩ := Option.bind_eq_some_iff.mp ran
    obtain ⟨outcome, -, ran⟩ := Option.bind_eq_some_iff.mp ran
    cases ran
    exact Or.inl rfl
  · have other := elsewhere_step ran elsewhere fun i choice same => phase ⟨i, choice, same⟩
    rcases other.recv with kept | ⟨packet, addr, -, idle, goes⟩
    · exact Or.inl kept
    · exact Or.inr ⟨idle, packet, addr, goes⟩

/-- Only time itself moves the clock. -/
theorem clock_kept {action : Action} (ran : s.step env action = some next)
    (timeless : ∀ nanos, action ≠ .advance nanos) : next.clock = s.clock := by
  cases action with
  | recv choice => exact (recvStep_frame ran).1
  | receive packet addr =>
    simp only [Server.step] at ran
    split at ran <;> cases ran <;> rfl
  | phase i choice =>
    obtain ⟨task, -, ran⟩ := Option.bind_eq_some_iff.mp ran
    obtain ⟨outcome, -, ran⟩ := Option.bind_eq_some_iff.mp ran
    cases ran
    rfl
  | includeDevice id =>
    cases ran
    simp only [Server.includeStep]
    split <;> rfl
  | exclusion i =>
    obtain ⟨task, -, ran⟩ := Option.bind_eq_some_iff.mp ran
    dsimp only at ran
    split at ran
    · obtain ⟨found, -, ran⟩ := Option.bind_eq_some_iff.mp ran
      split at ran <;> cases ran <;> rfl
    all_goals cases ran <;> rfl
  | removal i =>
    obtain ⟨task, -, ran⟩ := Option.bind_eq_some_iff.mp ran
    split at ran <;> cases ran
    rfl
  | housekeeping =>
    cases ran
    simp only [Server.housekeepingStep]
    split <;> rfl
  | client call =>
    cases ran
    cases call with
    | completeInFlight addr token =>
      simp only [Server.clientStep, Server.answer]
      split <;> rfl
    | _ => rfl
  | advance nanos => exact absurd rfl (timeless nanos)
  | excludeDevice device =>
    cases ran
    rfl

/-- The clock does not go back. -/
theorem clock_step {action : Action} (ran : s.step env action = some next) : s.clock ≤ next.clock := by
  by_cases passes : ∃ nanos, action = .advance nanos
  · obtain ⟨nanos, rfl⟩ := passes
    cases ran
    exact Nat.le_add_right _ _
  · exact Nat.le_of_eq (clock_kept ran fun nanos same => passes ⟨nanos, same⟩).symm

/-- An endpoint that is registered was named in a request, so it has no
colon. -/
theorem endpoint_of_register {packet p : Packet} {addr a : SocketAddr} {endpoint : String}
    {reg : Registration} (handles : handlePacket env packet addr = .register endpoint reg p a) :
    endpoint = endpointOf packet := by
  have post (handles : handlePost env packet addr = .register endpoint reg p a) :
      endpoint = endpointOf packet := by
    unfold handlePost at handles
    revert handles
    generalize endpointOf packet = named
    generalize registrationOf env packet = registration
    cases postPath packet with
    | bootstrap =>
      dsimp only
      split <;> exact fun other => (by cases other)
    | registration =>
      dsimp only
      split
      · exact fun other => (by cases other)
      · intro same
        injection same with same
        exact same.symm
    | _ => exact fun other => (by cases other)
  unfold handlePacket at handles
  split at handles
  · split at handles
    · exact post handles
    · cases handles
    · cases handles
  · split at handles
    · exact post handles
    · cases handles
    · cases handles
  · cases handles
  · cases handles

end Lwm2mServer.RecvSteps
