import Lwm2mServer.Library.Observers
import Lwm2mServer.WriteOrder

/-! What the response codes have to do with the outcome of a write phase.

A channel carries one bit, documented as success for 2.xx and failure for RST
or error. `handle_ack` does not look at the code: every acknowledgement under
the token of a waiting step counts as success, and one without the token, such
as an empty one, as none at all. The outcome is therefore the documented one in
the runs in which no step is answered with another code, and only there. -/
namespace Lwm2mServer.WriteOutcome
open Library WriteAcks WriteOrder

variable {env : Env} {c next : Core} {action : Action} {s : Server} {seen : Server × List Nat}

/-- The request a phase is about to send or waits to have answered. -/
def outstanding : PhasePc → Option (Token × Packet)
  | .send _ token _ packet _ | .wait _ token _ packet _ => some (token, packet)
  | _ => none

/-- An acknowledgement of the request: it has the token, or the message id and
comes from the device, as an empty one does. -/
def Acknowledges (packet : Packet) (addr : SocketAddr) (task : WritePhase) : Bool :=
  (outstanding task.pc).any fun (token, request) =>
    tokenArray packet.token = token || (packet.messageId = request.messageId && addr = task.addr)

/-- An acknowledgement that is handled has a code of class 2, unless it is for
no step of a write phase. -/
def AcksSucceed (c : Core) : Action → Bool
  | .recv _ =>
    match c.recv with
    | .ackWrite packet addr => packet.code.isSuccess ||
      ((c.boot.writeAcks.lookup (tokenArray packet.token)).isNone &&
        c.phases.all.all fun task => !Acknowledges packet addr task)
    | _ => true
  | _ => true

/-- The phases whose request is acknowledged in a step with any other code. -/
def turnedDown (s : Server) : Action → List Nat
  | .recv _ =>
    match s.recv with
    | .ackWrite packet addr =>
      if packet.code.isSuccess then []
      else (List.range s.phases.count).filter fun i =>
        (s.phases.get? i).any (Acknowledges packet addr)
    | _ => []
  | _ => []

/-- The server with the phases that were turned down so far. -/
def machine (env : Env) : Machine (Server × List Nat) Action :=
  (serverMachine env).observed (fun _ => []) fun s action _ => turnedDown s action

/-- A success on a channel stands for a code of class 2. -/
def CodesSucceed (log : List Event) : Prop :=
  ∀ channel token code, .answered channel token true code ∈ log → code.isSuccess

theorem codesSucceed_step (codes : CodesSucceed c.log) (succeed : AcksSucceed c action)
    (moved : Transition env c action next) : CodesSucceed next.log := by
  have plain {events : List Event} (none : ∀ event ∈ events, OfChannel event = false) :
      CodesSucceed (events ++ c.log) := by
    intro channel token code member
    rcases List.mem_append.mp member with added | old
    · cases none _ added
    · exact codes channel token code old
  rcases channel_cases moved with ⟨-, -, events, log, none⟩ | ⟨i, step, token, -, -, log⟩ |
    ⟨token, channel, success, code, held, -, -, log, acknowledged⟩ | ⟨token, -, -, events, log, none⟩
  · rw [log]
    exact plain none
  · rw [log]
    intro channel token' code member
    exact codes channel token' code ((List.mem_cons.mp member).resolve_left nofun)
  · rw [log]
    intro channel' token' code' member
    rcases List.mem_cons.mp member with same | old
    · cases same
      obtain ⟨choice, packet, addr, rfl, position, rfl, rfl⟩ := acknowledged rfl
      simpa [AcksSucceed, position, held] using succeed
    · exact codes channel' token' code' old
  · rw [log]
    exact plain none

theorem reached_codesSucceed
    (reached : (serverMachine env).Reaches (fun s action => AcksSucceed s.core action) s) :
    CodesSucceed s.log := by
  refine core_invariant (fun c action => AcksSucceed c action) (fun c => CodesSucceed c.log)
    reached ?_ fun _ _ _ codes succeed moved => codesSucceed_step codes succeed moved
  rintro c ⟨seed, serverUri, included, rfl⟩ channel token code member
  cases List.mem_singleton.mp member

/-- A request of the phase was answered by an acknowledgement with a code of
class 2. -/
def AckedWell (i : Nat) (step : WriteStep) (log : List Event) : Prop :=
  ∃ token channel code, .registered i step token channel ∈ log ∧
    .answered channel token true code ∈ log ∧ code.isSuccess

/-- A phase returns `Ok` after all five requests were answered so. -/
def ReturnsWell (event : Event) (earlier : List Event) : Prop :=
  ∀ i endpoint, event = .ended i endpoint (.ok ()) → ∀ step, AckedWell i step earlier

/-- What came in on a channel is a reset, or an acknowledgement with any other
code. -/
def Rejects (log : List Event) (token : Token) (channel : Nat) : Prop :=
  ∃ success code, .answered channel token success code ∈ log ∧ (success && code.isSuccess) = false

/-- A request of the phase was rejected, or turned down whatever the token. -/
def Refused (i : Nat) (seen : Server × List Nat) : Prop :=
  i ∈ seen.2 ∨ ∃ step token channel, .registered i step token channel ∈ seen.1.log ∧
    Rejects seen.1.log token channel

/-- The outcome of every write phase is what the codes say. -/
structure Judged (env : Env) (seen : Server × List Nat) : Prop where
  returned : EveryEvent ReturnsWell seen.1.log
  recorded : EveryEvent AfterReturn seen.1.log
  /-- A refused request keeps the phase from returning `Ok` and from recording
  its endpoint, -/
  refused : ∀ i, Refused i seen → ∀ endpoint,
    .ended i endpoint (.ok ()) ∉ seen.1.log ∧ .recorded i endpoint ∉ seen.1.log
  /-- and the phase fails as soon as it looks at the channel, which changes
  the included set in nothing. -/
  fails : ∀ i task step token channel packet attempt choice next,
    seen.1.phases.get? i = some task → task.pc = .wait step token channel packet attempt →
    i ∈ seen.2 ∨ Rejects seen.1.log token channel → seen.1.step env (.phase i choice) = some next →
      (∃ e, next.log = .ended i task.endpoint (.error e) :: seen.1.log) ∧
        next.boot.included = seen.1.boot.included

/-- In these runs no phase is turned down. -/
theorem turnedDown_nil (succeed : AcksSucceed s.core action) : turnedDown s action = [] := by
  unfold turnedDown
  split
  · split
    · rename_i packet addr position
      simp only [AcksSucceed, Server.core, position, Bool.or_eq_true, Bool.and_eq_true] at succeed
      rcases succeed with success | ⟨-, none_⟩
      · rw [if_pos success]
      · split
        · rfl
        · refine List.filter_eq_nil_iff.mpr fun i _ acknowledged => ?_
          obtain ⟨task, held, mine⟩ := Option.any_eq_true _ _ |>.mp acknowledged
          have other := List.all_eq_true.mp none_ task (List.mem_of_getElem? held)
          rw [mine] at other
          cases other
    · rfl
  · rfl

theorem reached_untouched
    (reached : (machine env).Reaches (fun seen action => AcksSucceed seen.1.core action) seen) :
    seen.2 = [] := by
  refine reached.invariant (fun seen => seen.2 = []) (fun _ initial => initial.2) ?_
  intro seen action next _ untouched succeed ran
  rw [(Machine.observed_step ran).2, turnedDown_nil succeed, untouched]
  rfl

/-- A rejected channel carries the failure. -/
private theorem failure_of_rejects (channels : Channels s.core) (codes : CodesSucceed s.log)
    {channel : Nat} {token : Token} (rejects : Rejects s.log token channel) :
    s.boot.oneshots.cell channel = .sent false := by
  obtain ⟨success, code, answered, refused⟩ := rejects
  have held := (channels.fired channel token success code answered).2
  cases success with
  | false => exact held
  | true =>
    rw [codes channel token code answered] at refused
    cases refused

private theorem not_returned_of_rejects (reached : (serverMachine env).Reaches Machine.always s)
    (codes : CodesSucceed s.log) {i : Nat} {step : WriteStep} {token : Token} {channel : Nat}
    (registered : .registered i step token channel ∈ s.log) (rejects : Rejects s.log token channel)
    (endpoint : String) : .ended i endpoint (.ok ()) ∉ s.log := by
  intro returned
  have channels := reached_channels reached
  have failure := failure_of_rejects channels codes rejects
  obtain ⟨earlier, acked, kept⟩ := (reached_inOrder reached).of_mem returned
  obtain ⟨token', channel', code', registered', answered'⟩ := acked step
  obtain ⟨task, held⟩ := reached_task reached registered rfl
  obtain ⟨rfl, rfl⟩ := (reached_stepped reached held).channel step token channel token' channel'
    registered (kept _ registered')
  have success := (channels.fired channel token true code' (kept _ answered')).2
  cases failure.symm.trans success

/-- **A write phase succeeds on 2.xx answers only**, in every run in which no
step of a write phase is acknowledged in any other way. -/
theorem outcome_follows_codes
    (reached : (machine env).Reaches (fun seen action => AcksSucceed seen.1.core action) seen) :
    Judged env seen := by
  have untouched := reached_untouched reached
  replace reached : (serverMachine env).Reaches (fun s action => AcksSucceed s.core action) seen.1 := by
    apply Machine.Reaches.unobserved
    exact reached
  have codes := reached_codesSucceed reached
  have channels := reached_channels reached.unguarded
  have recorded := recorded_after_return reached.unguarded
  constructor
  · rw [everyEvent_iff_splits]
    intro later event earlier split i endpoint returned step
    subst returned
    obtain ⟨token, channel, code, registered, answered⟩ :=
      everyEvent_iff_splits.mp (reached_inOrder reached.unguarded) later _ earlier split step
    refine ⟨token, channel, code, registered, answered, codes channel token code ?_⟩
    rw [split]
    exact List.mem_append_right later (List.mem_cons_of_mem _ answered)
  · exact recorded
  · rintro i (turned | ⟨step, token, channel, registered, rejects⟩) endpoint
    · rw [untouched] at turned
      cases turned
    · have unreturned := not_returned_of_rejects reached.unguarded codes registered rejects endpoint
      refine ⟨unreturned, fun member => ?_⟩
      obtain ⟨earlier, returned, kept⟩ := recorded.of_mem member
      exact unreturned (kept _ (returned i endpoint rfl))
  · rintro i task step token channel packet attempt choice next held pc (turned | rejects) ran
    · rw [untouched] at turned
      cases turned
    · have failure := failure_of_rejects channels codes rejects
      obtain ⟨task', held', ran⟩ := Option.bind_eq_some_iff.mp ran
      cases held.symm.trans held'
      simp only [WritePhase.step, pc, failure, PhaseOutcome.failed] at ran
      cases ran
      exact ⟨⟨_, rfl⟩, rfl⟩

theorem outcome_follows_codes_in_inclusion :
    ∃ seen, (machine Peer.env).exec (fun seen action => AcksSucceed seen.1.core action)
        (Peer.server, []) (Peer.approach "mower" Peer.genuine ++
          Peer.provision (.response .changed) ++ Peer.advance 0 3) = some seen ∧
      "mower" ∈ seen.1.boot.included ∧ Judged Peer.env seen := by
  obtain ⟨seen, ran, reached, ends⟩ := (machine Peer.env).exec_reaches
    (fun seen action => AcksSucceed seen.1.core action) (Peer.server, [])
    (Peer.approach "mower" Peer.genuine ++ Peer.provision (.response .changed) ++ Peer.advance 0 3)
    (fun seen => decide ("mower" ∈ seen.1.boot.included)) ⟨⟨_, _, _, _, _, rfl⟩, rfl⟩
    (by decide +kernel)
  exact ⟨seen, ran, of_decide_eq_true ends, outcome_follows_codes reached⟩

/-- The device answers all five requests with 4.04. -/
def answerNotFound : List Action :=
  Peer.approach "mower" Peer.genuine ++ Peer.provision (.response .notFound) ++ Peer.advance 0 3

private def Unsuccessful : Event → Bool
  | .answered _ _ _ code => !code.isSuccess
  | _ => true

/-- It is included nevertheless. -/
theorem included_on_not_found :
    ∃ seen, (machine Peer.env).exec Machine.always (Peer.server, []) answerNotFound = some seen ∧
      "mower" ∈ seen.1.boot.included ∧ ¬ Judged Peer.env seen := by
  obtain ⟨seen, ran, -, ends⟩ := (machine Peer.env).exec_reaches Machine.always (Peer.server, [])
    answerNotFound
    (fun seen => decide ("mower" ∈ seen.1.boot.included ∧ .ended 0 "mower" (.ok ()) ∈ seen.1.log) &&
      seen.1.log.all Unsuccessful)
    ⟨⟨_, _, _, _, _, rfl⟩, rfl⟩ (by decide +kernel)
  simp only [Bool.and_eq_true, decide_eq_true_eq, List.all_eq_true] at ends
  obtain ⟨⟨included, returned⟩, codes⟩ := ends
  refine ⟨seen, ran, included, fun judged => ?_⟩
  obtain ⟨earlier, well, kept⟩ := judged.returned.of_mem returned
  obtain ⟨token, channel, code, -, answered, success⟩ := well 0 "mower" rfl .deleteServer
  have failed := codes _ (kept _ answered)
  simp [Unsuccessful, success] at failed

/-- An empty acknowledgement of the first request a phase sends. -/
def emptyAck : Packet :=
  { type := .acknowledgement, code := .empty, messageId := 1, token := [] }

/-- The device acknowledges the first request without an answer, and then
answers all of them. -/
def answerLater : List Action :=
  Peer.approach "mower" Peer.genuine ++ Peer.advance 0 3 ++ Peer.deliver emptyAck 5 ++
    (Peer.provision (.response .changed)).drop 3 ++ Peer.advance 0 3

/-- The empty acknowledgement turns the phase down, and is passed over. -/
theorem included_on_empty :
    ∃ seen, (machine Peer.env).exec Machine.always (Peer.server, []) answerLater = some seen ∧
      "mower" ∈ seen.1.boot.included ∧ ¬ Judged Peer.env seen := by
  obtain ⟨seen, ran, -, ends⟩ := (machine Peer.env).exec_reaches Machine.always (Peer.server, [])
    answerLater (fun seen => decide ("mower" ∈ seen.1.boot.included ∧
      .ended 0 "mower" (.ok ()) ∈ seen.1.log ∧ 0 ∈ seen.2)) ⟨⟨_, _, _, _, _, rfl⟩, rfl⟩
    (by decide +kernel)
  obtain ⟨included, returned, turned⟩ := of_decide_eq_true ends
  exact ⟨seen, ran, included, fun judged => (judged.refused 0 (Or.inl turned) "mower").1 returned⟩

end Lwm2mServer.WriteOutcome
