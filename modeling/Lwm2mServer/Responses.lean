import Lwm2mServer.Library.Serving
import Lwm2mServer.RecvSteps

/-! Who gets an answer. The receive loop handles one packet to its end and
answers it at most once, in the middle of its handler; meanwhile the other
tasks go on. Acknowledgements and resets are never answered, and a POST /bs
only after its endpoint was approved. -/
namespace Lwm2mServer.Responses
open Library RecvSteps

/-- A request that came in, and how many came before it. -/
structure Request where
  number : Nat
  packet : Packet
  addr : SocketAddr

/-- What the registries said while the request of a number was handled. -/
inductive Note where
  /-- `is_approved` said yes. -/
  | approved (number : Nat) (endpoint : String)
  /-- The id under which the registry had the endpoint right after `register`. -/
  | granted (number : Nat) (endpoint : String) (id : UInt32)

/-- The server with what came in and what the receive loop handed to the socket
in answer, the newest first. -/
structure Watched where
  server : Server
  received : List Request := []
  responded : List (Packet × SocketAddr) := []
  notes : List Note := []

/-- The request that arrives in a step. -/
def arrives (number : Nat) : Action → List Request
  | .receive (some packet) addr => [⟨number, packet, addr⟩]
  | _ => []

/-- The response the receive loop hands over in a step; encoding or sending it
can still fail. -/
def responds (s : Server) : Action → List (Packet × SocketAddr)
  | .recv _ =>
    match s.recv with
    | .respond response addr _ => [(response, addr)]
    | .acknowledge _ packet addr => [(makeResponse packet .changed, addr)]
    | _ => []
  | _ => []

/-- What is noted in a step for the request that is being handled. -/
def noted (number : Nat) (s next : Server) : Action → List Note
  | .recv _ =>
    match s.recv with
    | .askApproved endpoint _ _ => if s.boot.isApproved endpoint then [.approved number endpoint] else []
    | .register endpoint _ _ _ =>
      ((next.devices.byEndpoint.lookup endpoint).map (.granted number endpoint)).toList
    | _ => []
  | _ => []

/-- The request that is being handled is the last one that came in. -/
def step (env : Env) (w : Watched) (action : Action) : Option Watched :=
  (w.server.step env action).map fun next =>
    { server := next
      received := arrives w.received.length action ++ w.received
      responded := responds w.server action ++ w.responded
      notes := noted (w.received.length - 1) w.server next action ++ w.notes }

def machine (env : Env) : Machine Watched Action where
  start w := ∃ server, (serverMachine env).start server ∧ w = { server }
  step := step env

/-- A request the handlers look at. -/
def Asks (packet : Packet) (method : Method) : Prop :=
  (packet.type = .confirmable ∨ packet.type = .nonConfirmable) ∧ packet.code = .request method

/-- The code and the location a request is answered with, given what was noted
for it. -/
inductive Told (notes : List Note) (request : Request) : Status → List String → Prop where
  | deleted (asks : Asks request.packet .delete) : Told notes request .deleted []
  | unnamed (asks : Asks request.packet .post)
      (path : postPath request.packet = .bootstrap ∨ postPath request.packet = .registration)
      (unnamed : endpointOf request.packet = "") : Told notes request .badRequest []
  | approved (asks : Asks request.packet .post) (path : postPath request.packet = .bootstrap)
      (named : endpointOf request.packet ≠ "")
      (approval : .approved request.number (endpointOf request.packet) ∈ notes) :
      Told notes request .changed []
  | created {id : UInt32} (asks : Asks request.packet .post)
      (path : postPath request.packet = .registration) (named : endpointOf request.packet ≠ "")
      (given : .granted request.number (endpointOf request.packet) id ∈ notes) :
      Told notes request .created ["rd", toString id.toNat]
  | changed (asks : Asks request.packet .post)
      (path : postPath request.packet = .update ∨ postPath request.packet = .data) :
      Told notes request .changed []
  | unknown (asks : Asks request.packet .post) (path : postPath request.packet = .unknown) :
      Told notes request .notFound []

/-- An acknowledgement of the request, to where it came from, with its message
id and its token. -/
structure Answers (notes : List Note) (request : Request) (response : Packet × SocketAddr) :
    Prop where
  back : response.2 = request.addr
  told : ∃ status location, Told notes request status location ∧
    response.1 = { makeResponse request.packet status with locationPath := location }

/-- The requests that are answered in any case. -/
def owed (request : Request) : Bool :=
  (request.packet.type matches .confirmable | .nonConfirmable) &&
    (request.packet.code = .request .delete ||
      request.packet.code = .request .post &&
        (postPath request.packet ≠ .bootstrap || endpointOf request.packet = ""))

/-- The answers match the requests. -/
structure Served (w : Watched) : Prop where
  /-- Each answers a request of its own that came in, in the same order. -/
  matched : ∃ chosen, chosen.Sublist w.received ∧
    List.Forall₂ (Answers w.notes) chosen w.responded
  /-- Once the loop is idle, every request that is owed an answer has one. -/
  complete : w.server.recv = .idle → ∃ chosen, chosen.Sublist w.received ∧
    List.Forall₂ (Answers w.notes) chosen w.responded ∧ (w.received.filter owed).Sublist chosen
  /-- No two requests have a number in common. -/
  numbered : (w.received.map (·.number)).Nodup
  /-- At most one id was granted under a number. -/
  single : ∀ number endpoint endpoint' id id', .granted number endpoint id ∈ w.notes →
    .granted number endpoint' id' ∈ w.notes → endpoint = endpoint' ∧ id = id'

/-! ## One step -/

/-- The positions at which the handler has answered, or will not. -/
def closed : Recv → Bool
  | .touch .. | .reportOnline .. | .respond .. | .announce .. | .askApproved .. | .consume ..
  | .acknowledge .. | .register .. => false
  | _ => true

/-- A POST /bs that names its endpoint. -/
def Bootstraps (packet : Packet) (endpoint : String) : Prop :=
  Asks packet .post ∧ postPath packet = .bootstrap ∧ endpointOf packet = endpoint ∧ endpoint ≠ ""

/-- A POST /rd that names its endpoint. -/
def Registers (packet : Packet) (endpoint : String) : Prop :=
  Asks packet .post ∧ postPath packet = .registration ∧ endpointOf packet = endpoint ∧ endpoint ≠ ""

/-- Nothing was granted to the request so far. -/
def Fresh (notes : List Note) (number : Nat) : Prop :=
  ∀ endpoint id, .granted number endpoint id ∉ notes

/-- The request the receive loop has still to answer. -/
inductive Open (notes : List Note) : Recv → Option Request → Prop where
  | closed (shut : closed recv = true) : Open notes recv none
  | touch (fresh : Fresh notes number) : Open notes (.touch packet addr) (some ⟨number, packet, addr⟩)
  | online (fresh : Fresh notes number) :
      Open notes (.reportOnline endpoint packet addr) (some ⟨number, packet, addr⟩)
  | respond (answers : Answers notes request (response, addr)) :
      Open notes (.respond response addr rest) (some request)
  | announce (bootstraps : Bootstraps packet endpoint) :
      Open notes (.announce endpoint packet addr) (some ⟨number, packet, addr⟩)
  | askApproved (bootstraps : Bootstraps packet endpoint) :
      Open notes (.askApproved endpoint packet addr) (some ⟨number, packet, addr⟩)
  | consume (bootstraps : Bootstraps packet endpoint) (approval : .approved number endpoint ∈ notes) :
      Open notes (.consume endpoint packet addr) (some ⟨number, packet, addr⟩)
  | acknowledge (bootstraps : Bootstraps packet endpoint) (approval : .approved number endpoint ∈ notes) :
      Open notes (.acknowledge endpoint packet addr) (some ⟨number, packet, addr⟩)
  | register (registers : Registers packet endpoint) (fresh : Fresh notes number) :
      Open notes (.register endpoint registration packet addr) (some ⟨number, packet, addr⟩)

/-- What a step of the receive loop does with the request that is open. -/
inductive Turn (notes : List Note) (recv : Recv) :
    Option Request → List (Packet × SocketAddr) → Prop where
  | stays (still : Open notes recv current) : Turn notes recv current []
  | answered (answers : Answers notes request response) (shut : closed recv = true) :
      Turn notes recv (some request) [response]
  | passed (free : owed request = false) (shut : closed recv = true) :
      Turn notes recv (some request) []

variable {env : Env} {s next : Server} {w w' : Watched} {choice : Choice} {action : Action}
  {notes more : List Note} {packet : Packet} {addr : SocketAddr} {number : Nat} {endpoint : String}

theorem Told.mono {request : Request} {status : Status} {location : List String}
    (told : Told notes request status location) (grown : ∀ note ∈ notes, note ∈ more) :
    Told more request status location := by
  cases told with
  | created asks path named given => exact .created asks path named (grown _ given)
  | deleted asks => exact .deleted asks
  | unnamed asks path unnamed => exact .unnamed asks path unnamed
  | approved asks path named approval => exact .approved asks path named (grown _ approval)
  | changed asks path => exact .changed asks path
  | unknown asks path => exact .unknown asks path

theorem Answers.mono {request : Request} {response : Packet × SocketAddr}
    (answers : Answers notes request response) (grown : ∀ note ∈ notes, note ∈ more) :
    Answers more request response := by
  obtain ⟨back, status, location, told, same⟩ := answers
  exact ⟨back, status, location, told.mono grown, same⟩

/-- A plain answer. -/
theorem answers_plain {status : Status} (told : Told notes ⟨number, packet, addr⟩ status []) :
    Answers notes ⟨number, packet, addr⟩ (makeResponse packet status, addr) :=
  ⟨rfl, status, [], told, rfl⟩

theorem closed_resume (rest : AfterResponse) (addr : SocketAddr) : closed (rest.resume addr) = true := by
  cases rest with
  | report payload =>
    simp only [AfterResponse.resume]
    split <;> rfl
  | _ => rfl

/-- Where the handlers begin: an answer is ready, the request is one that waits
for more, or it gets none. -/
theorem turn_handlePost (asks : Asks packet .post) (fresh : Fresh notes number) :
    Open notes (handlePost env packet addr) (some ⟨number, packet, addr⟩) := by
  unfold handlePost
  generalize named : endpointOf packet = endpoint
  cases path : postPath packet with
  | bootstrap =>
    dsimp only
    split
    · rename_i unnamed
      exact .respond (answers_plain (.unnamed asks (.inl path) (named.trans unnamed)))
    · rename_i isNamed
      exact .announce ⟨asks, path, named, isNamed⟩
  | registration =>
    dsimp only
    split
    · rename_i unnamed
      exact .respond (answers_plain (.unnamed asks (.inr path) (named.trans unnamed)))
    · rename_i isNamed
      exact .register ⟨asks, path, named, isNamed⟩ fresh
  | update => exact .respond (answers_plain (.changed asks (.inl path)))
  | data => exact .respond (answers_plain (.changed asks (.inr path)))
  | unknown => exact .respond (answers_plain (.unknown asks path))

theorem turn_handlePacket (fresh : Fresh notes number) :
    Turn notes (handlePacket env packet addr) (some ⟨number, packet, addr⟩) [] := by
  unfold handlePacket
  cases type : packet.type with
  | acknowledgement | reset => exact .passed (by simp [owed, type]) rfl
  | _ =>
    cases code : packet.code with
    | request method =>
      cases method with
      | post => exact .stays (turn_handlePost ⟨by simp [type], code⟩ fresh)
      | delete => exact .stays (.respond (answers_plain (.deleted ⟨by simp [type], code⟩)))
      | _ => exact .passed (by simp [owed, code]) rfl
    | _ => exact .passed (by simp [owed, code]) rfl

theorem owed_bootstraps (bootstraps : Bootstraps packet endpoint) :
    owed ⟨number, packet, addr⟩ = false := by
  obtain ⟨⟨-, code⟩, path, rfl, named⟩ := bootstraps
  simp [owed, code, path, named]

theorem register_finds {r r' : DeviceRegistry} {now : Instant} {endpoint : String} {reg : Registration}
    {id : UInt32} (ran : r.register now endpoint addr reg = some (id, r')) :
    r'.byEndpoint.lookup endpoint = some id := by
  unfold DeviceRegistry.register at ran
  split at ran
  · rename_i known held
    obtain ⟨old, -, ran⟩ := Option.bind_eq_some_iff.mp ran
    obtain ⟨dev, -, ran⟩ := Option.bind_eq_some_iff.mp ran
    cases ran
    simp only [DeviceRegistry.putDevice]
    split <;> exact held
  · cases ran
    rw [Table.lookup_insert_if, if_pos rfl]

/-- After the answer, and where there is none to give, it stays so. -/
theorem closed_step (shut : closed s.recv = true) (ran : s.recvStep env choice = some next) :
    closed next.recv = true := by
  cases position : s.recv with
  | touch | reportOnline | respond | announce | askApproved | consume | acknowledge | register =>
    rw [position] at shut
    cases shut
  | idle =>
    simp only [Server.recvStep, position] at ran
    cases ran
  | findReporter | findVersions | drain | mergeReport =>
    simp only [Server.recvStep, position] at ran
    obtain ⟨result, -, ran⟩ := Option.bind_eq_some_iff.mp ran
    cases ran
    dsimp only
    try split <;> rfl
    all_goals rfl
  | begin | ackWrite | ackComplete | ackValidate | ackBlock | askIncluded | rstWrite =>
    simp only [Server.recvStep, position] at ran
    split at ran <;> cases ran <;> rfl
  | askCert | ackPending | rstPending =>
    simp only [Server.recvStep, position] at ran
    cases ran
    dsimp only
    split <;> rfl
  | ackInFlight | rstInFlight =>
    simp only [Server.recvStep, position] at ran
    cases ran
    unfold Server.answer
    split <;> rfl
  | _ =>
    simp only [Server.recvStep, position] at ran
    cases ran
    rfl

theorem closed_silent (shut : closed s.recv = true) : responds s (.recv choice) = [] := by
  simp only [responds]
  split
  · rename_i position
    rw [position] at shut
    cases shut
  · rename_i position
    rw [position] at shut
    cases shut
  · rfl

/-- What is granted in a step was registered in it. -/
theorem granted_noted {other : Nat} {id : UInt32}
    (member : .granted other endpoint id ∈ noted number s next action) :
    other = number ∧ next.devices.byEndpoint.lookup endpoint = some id ∧
      ∃ reg packet addr, s.recv = .register endpoint reg packet addr := by
  unfold noted at member
  split at member
  · split at member
    · split at member <;> simp at member
    · rename_i position
      obtain ⟨found, held, same⟩ := Option.map_eq_some_iff.mp (Option.mem_toList.mp member)
      cases same
      exact ⟨rfl, held, _, _, _, position⟩
    · cases member
  · cases member

/-- A step of the receive loop. -/
theorem turn_recv {current : Option Request} (before : Open notes s.recv current)
    (numbered : ∀ request ∈ current, request.number = number)
    (ran : s.recvStep env choice = some next) :
    Turn (noted number s next (.recv choice) ++ notes) next.recv current
      (responds s (.recv choice)) := by
  generalize position : s.recv = recv at before
  cases before with
  | closed shut =>
    rw [← position] at shut
    rw [closed_silent shut]
    exact .stays (.closed (closed_step shut ran))
  | touch fresh =>
    simp only [Server.recvStep, position] at ran
    obtain ⟨⟨came, devices⟩, -, ran⟩ := Option.bind_eq_some_iff.mp ran
    cases ran
    simp only [responds, noted, position, List.nil_append]
    cases came with
    | none => exact turn_handlePacket fresh
    | some endpoint => exact .stays (.online fresh)
  | online fresh =>
    simp only [Server.recvStep, position] at ran
    cases ran
    simp only [responds, noted, position, List.nil_append]
    exact turn_handlePacket fresh
  | respond answers =>
    simp only [Server.recvStep, position] at ran
    cases ran
    simp only [responds, noted, position, List.nil_append]
    refine .answered answers ?_
    split
    · exact closed_resume _ _
    · rfl
  | announce bootstraps =>
    simp only [Server.recvStep, position] at ran
    cases ran
    simp only [responds, position]
    exact .stays (.askApproved bootstraps)
  | askApproved bootstraps =>
    cases numbered _ rfl
    simp only [Server.recvStep, position] at ran
    cases ran
    simp only [responds, noted, position]
    split
    · exact .stays (.consume bootstraps (List.mem_append_left _ List.mem_cons_self))
    · exact .passed (owed_bootstraps bootstraps) rfl
  | consume bootstraps approval =>
    simp only [Server.recvStep, position] at ran
    cases ran
    simp only [responds, position]
    exact .stays (.acknowledge bootstraps (List.mem_append_right _ approval))
  | acknowledge bootstraps approval =>
    obtain ⟨asks, path, rfl, named⟩ := bootstraps
    have shut : closed next.recv = true := by
      simp only [Server.recvStep, position] at ran
      split at ran
      · split at ran <;> cases ran <;> rfl
      · cases ran
        rfl
    simp only [responds, position]
    refine .answered (answers_plain (.approved asks path named ?_)) shut
    exact List.mem_append_right _ approval
  | register registers =>
    cases numbered _ rfl
    obtain ⟨asks, path, rfl, named⟩ := registers
    simp only [Server.recvStep, position] at ran
    obtain ⟨⟨id, devices⟩, registered, ran⟩ := Option.bind_eq_some_iff.mp ran
    cases ran
    have found := register_finds registered
    simp only [responds, noted, position, found, Option.map_some, Option.toList_some,
      List.singleton_append]
    refine .stays (.respond ⟨rfl, .created, _, .created asks path named ?_, rfl⟩)
    exact List.mem_cons_self

/-! ## Every run -/

/-- Requests are numbered as they come in. -/
def Numbered : List Request → Prop
  | [] => True
  | request :: earlier => request.number = earlier.length ∧ Numbered earlier

theorem Numbered.below {requests : List Request} (numbered : Numbered requests) :
    ∀ request ∈ requests, request.number < requests.length := by
  induction requests with
  | nil => exact fun _ member => by cases member
  | cons last earlier ih =>
    intro request member
    rcases List.mem_cons.mp member with rfl | old
    · rw [numbered.1]
      exact Nat.lt_succ_self _
    · exact Nat.lt_succ_of_lt (ih numbered.2 request old)

theorem Numbered.nodup {requests : List Request} (numbered : Numbered requests) :
    (requests.map (·.number)).Nodup := by
  induction requests with
  | nil => exact List.nodup_nil
  | cons last earlier ih =>
    refine List.nodup_cons.mpr ⟨fun again => ?_, ih numbered.2⟩
    obtain ⟨request, member, same⟩ := List.mem_map.mp again
    have below := Numbered.below numbered.2 request member
    exact Nat.ne_of_lt below (same.trans numbered.1)

/-- What was granted was granted to a request that came in, and once. -/
structure Grants (count : Nat) (notes : List Note) : Prop where
  below : ∀ number endpoint id, .granted number endpoint id ∈ notes → number < count
  single : ∀ number endpoint endpoint' id id', .granted number endpoint id ∈ notes →
    .granted number endpoint' id' ∈ notes → endpoint = endpoint' ∧ id = id'

/-- What was received before the request that is open is settled. -/
structure Tracked (w : Watched) (current : Option Request) (earlier : List Request) : Prop where
  parts : w.received = current.toList ++ earlier
  isOpen : Open w.notes w.server.recv current
  settled : Settled (Answers w.notes) owed earlier w.responded
  numbered : Numbered w.received
  grants : Grants w.received.length w.notes

variable {current : Option Request} {earlier : List Request}

theorem Tracked.last (tracked : Tracked w current earlier) :
    ∀ request ∈ current, request.number = w.received.length - 1 := by
  intro request here
  have numbered := tracked.numbered
  rw [tracked.parts, here] at numbered ⊢
  exact numbered.1

/-- A registration grants an id to the request that is open, which had none. -/
theorem Tracked.grants_recv (tracked : Tracked w current earlier) :
    Grants w.received.length
      (noted (w.received.length - 1) w.server next (.recv choice) ++ w.notes) := by
  have fresh {endpoint : String} {reg : Registration} {packet : Packet} {addr : SocketAddr}
      (position : w.server.recv = .register endpoint reg packet addr) :
      0 < w.received.length ∧ Fresh w.notes (w.received.length - 1) := by
    have isOpen := tracked.isOpen
    rw [position] at isOpen
    generalize here : current = open_ at isOpen
    cases isOpen with
    | closed shut => cases shut
    | register _ fresh =>
      have last := tracked.last _ here
      refine ⟨?_, last ▸ fresh⟩
      rw [tracked.parts, here]
      exact Nat.succ_pos _
  constructor
  · intro number endpoint id member
    rcases List.mem_append.mp member with new | old
    · obtain ⟨rfl, -, reg, packet, addr, position⟩ := granted_noted new
      have some_ := (fresh position).1
      omega
    · exact tracked.grants.below number endpoint id old
  · intro number endpoint endpoint' id id' member member'
    rcases List.mem_append.mp member with new | old
    · obtain ⟨rfl, found, _, _, _, position⟩ := granted_noted new
      rcases List.mem_append.mp member' with new' | old'
      · obtain ⟨-, found', _, _, _, position'⟩ := granted_noted new'
        cases position.symm.trans position'
        exact ⟨rfl, Option.some.inj (found.symm.trans found')⟩
      · exact absurd old' ((fresh position).2 endpoint' id')
    · rcases List.mem_append.mp member' with new' | old'
      · obtain ⟨rfl, -, _, _, _, position⟩ := granted_noted new'
        exact absurd old ((fresh position).2 endpoint id)
      · exact tracked.grants.single number endpoint endpoint' id id' old old'

theorem tracked_recv (tracked : Tracked w current earlier)
    (ran : w.server.recvStep env choice = some next) :
    ∃ current earlier, Tracked ⟨next, w.received, responds w.server (.recv choice) ++ w.responded,
      noted (w.received.length - 1) w.server next (.recv choice) ++ w.notes⟩ current earlier := by
  have turn := turn_recv tracked.isOpen tracked.last ran
  have grants : Grants w.received.length
      (noted (w.received.length - 1) w.server next (.recv choice) ++ w.notes) := tracked.grants_recv
  have before := tracked.settled.mono fun request response answers =>
    answers.mono fun note member =>
      List.mem_append_right (noted (w.received.length - 1) w.server next (.recv choice)) member
  generalize responds w.server (.recv choice) = response at turn ⊢
  cases turn with
  | stays still => exact ⟨current, earlier, tracked.parts, still, before, tracked.numbered, grants⟩
  | @answered request response answers shut =>
    exact ⟨none, request :: earlier, tracked.parts, .closed shut, .answered answers before,
      tracked.numbered, grants⟩
  | @passed request free shut =>
    exact ⟨none, request :: earlier, tracked.parts, .closed shut, .passed free before,
      tracked.numbered, grants⟩

/-- While the loop is idle, nothing is open. -/
theorem open_idle (before : Open notes .idle current) : current = none := by
  cases before
  rfl

/-- The other tasks leave the receive loop where it is. -/
theorem recv_kept (ran : s.step env action = some next) (recv : ∀ choice, action ≠ .recv choice)
    (receive : ∀ packet addr, action ≠ .receive packet addr) : next.recv = s.recv := by
  by_cases phase : ∃ i choice, action = .phase i choice
  · obtain ⟨i, choice, rfl⟩ := phase
    obtain ⟨task, -, ran⟩ := Option.bind_eq_some_iff.mp ran
    obtain ⟨outcome, -, ran⟩ := Option.bind_eq_some_iff.mp ran
    cases ran
    rfl
  · have other := elsewhere_step ran recv fun i choice same => phase ⟨i, choice, same⟩
    rcases other.recv with kept | ⟨packet, addr, same, -⟩
    · exact kept
    · exact absurd same (receive _ _)

theorem tracked_step (tracked : Tracked w current earlier) (ran : step env w action = some w') :
    ∃ current earlier, Tracked w' current earlier := by
  obtain ⟨next, stepped, rfl⟩ := Option.map_eq_some_iff.mp ran
  cases action with
  | recv choice => exact tracked_recv tracked stepped
  | receive packet addr =>
    simp only [Server.step] at stepped
    split at stepped
    · rename_i packet idle
      cases stepped
      have isOpen := tracked.isOpen
      rw [idle] at isOpen
      cases open_idle isOpen
      refine ⟨some ⟨w.received.length, packet, addr⟩, earlier,
        congrArg (List.cons (Request.mk w.received.length packet addr)) tracked.parts, .touch fun endpoint id granted => ?_,
        tracked.settled, ⟨rfl, tracked.numbered⟩, fun number endpoint id granted => ?_,
        tracked.grants.single⟩
      · exact Nat.lt_irrefl _ (tracked.grants.below _ endpoint id granted)
      · exact Nat.lt_succ_of_lt (tracked.grants.below number endpoint id granted)
    · cases stepped
      exact ⟨current, earlier, tracked.parts, tracked.isOpen, tracked.settled, tracked.numbered,
        tracked.grants⟩
    · cases stepped
  | _ =>
    refine ⟨current, earlier, tracked.parts, ?_, tracked.settled, tracked.numbered, tracked.grants⟩
    rw [recv_kept stepped (by simp) (by simp)]
    exact tracked.isOpen

/-- **Every answer goes to its own request**, in every run and however the other
tasks interleave, and none that is owed is missing. -/
theorem answered_once (reached : (machine env).Reaches Machine.always w) : Served w := by
  obtain ⟨current, earlier, tracked⟩ : ∃ current earlier, Tracked w current earlier := by
    refine reached.invariant (fun w => ∃ current earlier, Tracked w current earlier) ?_ ?_
    · rintro w ⟨server, ⟨seed, serverUri, included, devices, clock, rfl⟩, rfl⟩
      exact ⟨none, [], rfl, .closed rfl, .nil, trivial, nofun, nofun⟩
    · rintro w action w' _ ⟨current, earlier, before⟩ _ ran
      exact tracked_step before ran
  obtain ⟨chosen, among, each, all⟩ := tracked.settled.chosen
  constructor
  · refine ⟨chosen, ?_, each⟩
    rw [tracked.parts]
    exact among.trans (List.sublist_append_right _ _)
  · intro idle
    have isOpen := tracked.isOpen
    rw [idle] at isOpen
    cases open_idle isOpen
    rw [tracked.parts]
    exact ⟨chosen, among, each, all⟩
  · exact tracked.numbered.nodup
  · exact tracked.grants.single

/-- A device registers while the gateway expires devices, sends a report with an
unknown path and a request that is not handled, and deregisters. -/
def visit : List Action :=
  .receive (some (Peer.post "rd" "mower")) Peer.addr :: List.replicate 2 (.recv {}) ++
    .housekeeping :: List.replicate 4 (.recv {}) ++
    Peer.deliver (Peer.post "xx" "mower") 2 ++
    Peer.deliver { Peer.post "rd" "mower" with code := .request .get } 1 ++
    Peer.deliver { Peer.post "rd" "mower" with code := .request .delete } 3

theorem answered_once_visit : ∃ w, (machine Peer.env).exec Machine.always ⟨Peer.server, [], [], []⟩ visit =
    some w ∧ w.server.recv = .idle ∧
      w.responded.map (·.1.code) = [.response .deleted, .response .notFound, .response .created] ∧
      Served w := by
  obtain ⟨w, ran, reached, ends⟩ := (machine Peer.env).exec_reaches Machine.always
    ⟨Peer.server, [], [], []⟩ visit
    (fun w : Watched => (w.server.step Peer.env (.receive none Peer.addr)).isSome &&
      decide (w.responded.map (·.1.code) =
        [.response .deleted, .response .notFound, .response .created]))
    ⟨Peer.server, ⟨_, _, _, _, _, rfl⟩, rfl⟩ (by decide +kernel)
  simp only [Bool.and_eq_true, decide_eq_true_eq] at ends
  refine ⟨w, ran, ?_, ends.2, answered_once reached⟩
  -- only an idle receive loop takes what arrives
  cases position : w.server.recv with
  | idle => rfl
  | _ =>
    have waits := ends.1
    simp only [Server.step, position] at waits
    cases waits

end Lwm2mServer.Responses
