import Lwm2mServer.GatewaySteps

/-! The traffic class packets leave with. The class is a property of the one
socket, and between the moment a task sets it and the moment it sends, any
other task may set it again. `Agrees` says that every task between the two
finds the class it set; it is kept as long as no task sets a different class
while another has still to send. -/
namespace Lwm2mServer.TrafficClass
open Library Gateway GatewaySteps

/-- The condition on a step: a task that sets the class succeeds, or finds the
class it wants, and every task that has still to send wants the same. -/
def KeepsClass (env : Env) (g : Gateway) : GatewayAction → Prop
  | .setClass sender success => ∀ call ∈ g.sending env sender,
    (success = true ∨ g.trafficClass = call.trafficClass) ∧
      ∀ entry ∈ g.armed, entry.2.trafficClass = call.trafficClass
  | _ => True

instance (env : Env) (g : Gateway) : (action : GatewayAction) → Decidable (KeepsClass env g action)
  | .setClass sender _ => inferInstanceAs (Decidable (∀ call ∈ g.sending env sender, _ ∧ _))
  | .server _ | .ping | .request .. | .dispatch | .retransmit .. | .blockWrite .. => isTrue trivial

/-- Every packet left with the class of the function that sent it. -/
def OwnClass (g : Gateway) : Prop :=
  ∀ sent ∈ g.transmissions, sent.2 = sent.1.trafficClass

/-- The tasks between setting the class and sending find what they set. -/
structure Agrees (g : Gateway) : Prop where
  armed : ∀ entry ∈ g.armed, g.trafficClass = entry.2.trafficClass
  sent : OwnClass g

variable {env : Env} {g next : Gateway} {action : GatewayAction} {sender : Sender} {sent : Bool}

/-! ## One step -/

/-- What a step other than setting the class does to the socket. -/
structure Sends (g next : Gateway) : Prop where
  same : next.trafficClass = g.trafficClass
  armed : ∀ entry ∈ next.armed, entry ∈ g.armed
  transmissions : ∀ out ∈ next.transmissions, out ∈ g.transmissions ∨
    ∃ entry ∈ g.armed, out = (entry.2, g.trafficClass)

theorem Sends.refl (g : Gateway) : Sends g g :=
  ⟨rfl, fun _ member => member, fun _ member => Or.inl member⟩

/-- A step that leaves the socket alone. -/
theorem Sends.of_same {middle : Gateway} (sends : Sends g middle)
    (same : next.trafficClass = middle.trafficClass) (armed : next.armed = middle.armed)
    (transmissions : next.transmissions = middle.transmissions) : Sends g next := by
  refine ⟨same.trans sends.same, ?_, ?_⟩
  · rw [armed]
    exact sends.armed
  · rw [transmissions]
    exact sends.transmissions

theorem release_sends (released : g.release env sender sent = some next) : Sends g next := by
  unfold release at released
  split at released
  · cases released
    exact .refl g
  · rename_i call _
    split at released
    · rename_i ready
      cases released
      refine ⟨rfl, fun entry member => List.mem_of_mem_filter member, fun out member => ?_⟩
      cases sent with
      | false => exact Or.inl member
      | true =>
        rcases List.mem_cons.mp member with new | old
        · exact Or.inr ⟨_, ready, new⟩
        · exact Or.inl old
    · cases released

theorem afterRecv_socket (g : Gateway) : g.afterRecv.trafficClass = g.trafficClass ∧
    g.afterRecv.armed = g.armed ∧ g.afterRecv.transmissions = g.transmissions := by
  unfold afterRecv
  split
  · exact ⟨rfl, rfl, rfl⟩
  · exact ⟨rfl, rfl, rfl⟩
  · split <;> exact ⟨rfl, rfl, rfl⟩
  · exact ⟨rfl, rfl, rfl⟩

theorem serverStep_sends {action : Action} (ran : g.serverStep env action = some next) :
    Sends g next := by
  unfold serverStep at ran
  obtain ⟨server, -, ran⟩ := Option.bind_eq_some_iff.mp ran
  split at ran
  · cases ran
  · cases ran
    exact (Sends.refl g).of_same rfl rfl rfl
  · obtain ⟨middle, released, ran⟩ := Option.bind_eq_some_iff.mp ran
    cases ran
    have after := afterRecv_socket middle
    exact (release_sends released).of_same after.1 after.2.1 after.2.2
  · obtain ⟨middle, released, ran⟩ := Option.bind_eq_some_iff.mp ran
    cases ran
    exact (release_sends released).of_same rfl rfl rfl
  · split at ran
    · cases ran
      exact (Sends.refl g).of_same rfl rfl rfl
    · cases ran
  · cases ran
    exact (Sends.refl g).of_same rfl rfl rfl

theorem dispatchStep_sends (ran : g.dispatchStep env = some next) : Sends g next := by
  cases dispatch_move ran with
  | block | unsendable | single => exact (Sends.refl g).of_same rfl rfl rfl

/-- Only setting the class changes it, and what is sent leaves with the class
there is. -/
theorem step_sends (ran : g.step env action = some next)
    (other : ∀ sender success, action ≠ .setClass sender success) : Sends g next := by
  cases action with
  | setClass sender success => exact absurd rfl (other sender success)
  | server action => exact serverStep_sends ran
  | ping =>
    simp only [step] at ran
    split at ran <;> cases ran
    exact (Sends.refl g).of_same rfl rfl rfl
  | request =>
    cases ran
    exact (Sends.refl g).of_same rfl rfl rfl
  | dispatch => exact dispatchStep_sends ran
  | retransmit i choice =>
    obtain ⟨task, -, ran⟩ := Option.bind_eq_some_iff.mp ran
    obtain ⟨outcome, -, ran⟩ := Option.bind_eq_some_iff.mp ran
    obtain ⟨middle, released, ran⟩ := Option.bind_eq_some_iff.mp ran
    obtain ⟨server, -, ran⟩ := Option.bind_eq_some_iff.mp ran
    cases ran
    exact (release_sends released).of_same rfl rfl rfl
  | blockWrite i choice =>
    obtain ⟨task, -, ran⟩ := Option.bind_eq_some_iff.mp ran
    obtain ⟨outcome, -, ran⟩ := Option.bind_eq_some_iff.mp ran
    obtain ⟨middle, released, ran⟩ := Option.bind_eq_some_iff.mp ran
    obtain ⟨server, -, ran⟩ := Option.bind_eq_some_iff.mp ran
    cases ran
    exact (release_sends released).of_same rfl rfl rfl

theorem Agrees.keep (agrees : Agrees g) (sends : Sends g next) : Agrees next where
  armed entry member := by
    rw [sends.same]
    exact agrees.armed entry (sends.armed entry member)
  sent out member := by
    rcases sends.transmissions out member with old | ⟨entry, ready, rfl⟩
    · exact agrees.sent out old
    · exact agrees.armed entry ready

theorem agrees_step (agrees : Agrees g) (keeps : KeepsClass env g action)
    (ran : g.step env action = some next) : Agrees next := by
  by_cases setting : ∃ sender success, action = .setClass sender success
  · obtain ⟨sender, success, rfl⟩ := setting
    obtain ⟨call, calls, ran⟩ := Option.bind_eq_some_iff.mp ran
    split at ran
    · cases ran
    · cases ran
      obtain ⟨set, others⟩ := keeps call calls
      have now : (if success then call.trafficClass else g.trafficClass) = call.trafficClass := by
        cases success with
        | true => rfl
        | false => exact set.resolve_left nofun
      refine ⟨fun entry member => ?_, agrees.sent⟩
      dsimp only
      rw [now]
      rcases List.mem_cons.mp member with rfl | old
      · rfl
      · exact (others entry old).symm
  · refine agrees.keep (step_sends ran fun sender success same => ?_)
    exact setting ⟨sender, success, same⟩

/-- **Every packet leaves with its own traffic class** in a run in which no
task sets a different class while another has still to send. -/
theorem reached_own_class (reached : (machine env).Reaches (KeepsClass env) g) : OwnClass g := by
  have agrees : Agrees g := by
    refine reached.invariant Agrees (fun g initial => ?_) ?_
    · obtain ⟨seed, serverUri, included, now, snapshots, clock, trafficClass, -, -, -, rfl⟩ := initial
      exact ⟨nofun, nofun⟩
    · intro g action next _ agrees keeps ran
      exact agrees_step agrees keeps ran
  exact agrees.sent

/-- The GET /0/0 for a second device goes out after the reset of the first. -/
def oneAfterTheOther : List GatewayAction :=
  Peer.resetInFlight ++ [.setClass (.retransmission 0) true, .retransmit 0 {}] ++
    Peer.relay (Peer.post "bs" "pump") Peer.addr 5 ++ [.setClass .recv true, .server (.recv {})]

theorem classes_one_after_the_other :
    ∃ g, (machine Peer.env).exec (KeepsClass Peer.env) Peer.gateway oneAfterTheOther = some g ∧
      OwnClass g ∧ g.transmissions = [(.sendBootstrapPacket, tcPlain), (.dispatchOp, tcEncrypted),
        (.sendEncryptedPacket, tcEncrypted)] := by
  obtain ⟨g, ran, reached, seen⟩ := (machine Peer.env).exec_reaches (KeepsClass Peer.env) _
    oneAfterTheOther (fun g : Gateway => g.transmissions = [(.sendBootstrapPacket, tcPlain),
      (.dispatchOp, tcEncrypted), (.sendEncryptedPacket, tcEncrypted)])
    Peer.start_gateway (by decide +kernel)
  exact ⟨g, ran, reached_own_class reached, of_decide_eq_true seen⟩

/-- Between setting the class and sending the reset of the first device, the
receive loop sets the class for the second. -/
def classSetInBetween : List GatewayAction :=
  Peer.resetInFlight ++ .setClass (.retransmission 0) true ::
    Peer.relay (Peer.post "bs" "pump") Peer.addr 5 ++ [.setClass .recv true, .retransmit 0 {}]

/-- A message to a registered device leaves without encryption. -/
theorem sent_without_encryption :
    ∃ g, (machine Peer.env).Reaches Machine.always g ∧ ¬ OwnClass g := by
  obtain ⟨g, -, reached, seen⟩ := (machine Peer.env).exec_reaches Machine.always _
    classSetInBetween (fun g : Gateway => (SendCall.dispatchOp, tcPlain) ∈ g.transmissions)
    Peer.start_gateway (by decide +kernel)
  refine ⟨g, reached, fun own => ?_⟩
  have plain : tcPlain = tcEncrypted := own _ (of_decide_eq_true seen)
  exact absurd plain (by decide)

end Lwm2mServer.TrafficClass
