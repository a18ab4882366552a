import Lwm2mServer.BlockAcks
import Lwm2mServer.GatewaySteps
import Lwm2mServer.InFlight
import Mathlib.Data.List.Perm.Subperm

/-! The ids of the operations under way, from the channel to the dispatch task
to the end of a flight or of a block-wise write. An id comes from one of three
counters: `NEXT_OP_ID` for IPC commands, `INTERNAL_OP_ID` for factory resets and
`NEXT_PING_OP_ID` for pings; a fourth, the bootstrap registry's, hands out
tokens from the same 32 bits. A step hands out at most one value, and otherwise
moves ids on or drops them. -/
namespace Lwm2mServer.OperationIds
open Library BlockAcks DeviceRegistry GatewaySteps InFlight

/-- The four counters. -/
inductive Counter where
  | nextOp
  | internal
  | ping
  | token
  deriving DecidableEq

/-- The value a step hands out, and the counter it comes from. -/
def handsOut (g : Gateway) : GatewayAction → Option (Counter × UInt32)
  | .request .. => some (.nextOp, g.nextOpId)
  | .ping => some (.ping, g.nextPingOpId)
  | .server (.recv _) =>
    match g.server.recv with
    | .dispatchReset .. => some (.internal, g.internalOpId)
    | .begin endpoint _ =>
      if g.server.boot.byEndpoint.lookup endpoint = none then
        some (.token, g.server.boot.tokenCounter)
      else none
    | _ => none
  | .server (.phase i _) => (g.server.phases.get? i).bind fun task =>
    match task.pc with
    | .alloc .. => some (.token, g.server.boot.tokenCounter)
    | _ => none
  | _ => none

/-- The id a step gives to a new operation. -/
def handedIds (g : Gateway) (act : GatewayAction) : List UInt32 :=
  match handsOut g act with
  | some (.token, _) | none => []
  | some (_, id) => [id]

/-- The operations that wait for the dispatch task, are in flight or are
written in blocks. -/
def opIds (g : Gateway) : List UInt32 :=
  g.queue.map (·.2.id) ++ ((held g.server.devices.byId).map (·.id) ++ g.blockWrites.all.map (·.opId))

variable {env : Env} {s next : Server} {g g' : Gateway} {act : GatewayAction} {action : Action}

/-! ## The device tables -/

theorem held_erase (table : Table UInt32 Device) (id : UInt32) :
    List.Subperm (held (table.erase id)) (held table) := by
  cases stored : table.lookup id with
  | none => rw [Table.erase_of_lookup_none stored]
  | some dev =>
    have part := (List.sublist_append_right dev.inFlight.values (held (table.erase id))).subperm
    exact part.trans (held_stored stored).symm.subperm

/-- Only `place_in_flight` puts an operation into a table. -/
theorem held_call {r last : DeviceRegistry} {op : Op} (tidy : Tidy r.byId)
    (ran : r.apply op = some last) (other : ∀ addr token stored, op ≠ .placeInFlight addr token stored) :
    Tidy last.byId ∧ List.Subperm (held last.byId) (held r.byId) := by
  by_cases completes : ∃ addr token, op = .completeInFlight addr token
  · obtain ⟨addr, token, rfl⟩ := completes
    cases ran
    obtain ⟨kept, parts, -⟩ := complete_conserves tidy addr token
    exact ⟨kept, (List.sublist_append_right _ _).subperm.trans parts.symm.subperm⟩
  · have keeps : handsOver op = false := by
      cases op with
      | placeInFlight addr token stored => exact (other addr token stored rfl).elim
      | completeInFlight addr token => exact (completes ⟨addr, token, rfl⟩).elim
      | _ => rfl
    rcases moves_apply ran keeps with ⟨gone, moves, -, -⟩ | ⟨now, endpoint, addr, reg, -, -, table, -⟩
    · obtain ⟨kept, parts⟩ := moves_conserve moves tidy
      exact ⟨kept, (List.sublist_append_right _ _).subperm.trans parts.symm.subperm⟩
    · rw [table]
      constructor
      · intro id dev found
        rw [Table.lookup_insert_if] at found
        split at found
        · cases found
          exact ⟨rfl, fun token op flying => by simp [Device.new] at flying⟩
        · exact tidy id dev found
      · rw [held_insert]
        exact held_erase _ _

theorem place_of_call {addr : SocketAddr} {token : Token} {op : PendingOperation}
    (called : registryCall s action = some (.placeInFlight addr token op)) :
    action = .client (.placeInFlight addr token op) := by
  cases action with
  | recv choice => cases position : s.recv <;> simp [registryCall, position] at called
  | exclusion i =>
    obtain ⟨task, -, called⟩ := Option.bind_eq_some_iff.mp called
    split at called <;> cases called
  | removal i =>
    obtain ⟨task, -, called⟩ := Option.map_eq_some_iff.mp called
    cases called
  | housekeeping => cases tick : s.housekeeping <;> simp [registryCall, tick] at called
  | client call =>
    cases call <;> cases called
    rfl
  | _ => cases called

theorem held_step (tidy : Tidy s.devices.byId) (ran : s.step env action = some next)
    (other : ∀ addr token op, action ≠ .client (.placeInFlight addr token op)) :
    Tidy next.devices.byId ∧ List.Subperm (held next.devices.byId) (held s.devices.byId) := by
  have made := registry_step ran
  cases called : registryCall s action with
  | none =>
    rw [called] at made
    have same : s.devices = next.devices := Option.some.inj made
    rw [← same]
    exact ⟨tidy, .refl _⟩
  | some op =>
    rw [called] at made
    refine held_call tidy made fun addr token stored equal => ?_
    subst equal
    exact other addr token stored (place_of_call called)

/-! ## The tasks of `client.rs` -/

/-- A retransmission task neither puts operations in flight nor waits for
blocks. -/
theorem retransmission_calls {task : Retransmission} {choice : Choice}
    {outcome : ClientOutcome Retransmission} (moved : task.step s choice = some outcome) :
    (∀ addr token op, outcome.call ≠ some (.placeInFlight addr token op)) ∧
      ∀ token, outcome.call ≠ some (.armBlock token) := by
  unfold Retransmission.step at moved
  split at moved
  case h_2 =>
    obtain ⟨flying, -, moved⟩ := Option.bind_eq_some_iff.mp moved
    split at moved <;> cases moved
    all_goals refine ⟨fun _ _ _ called => ?_, fun _ called => ?_⟩ <;> cases called
  all_goals cases moved
  all_goals refine ⟨fun _ _ _ called => ?_, fun _ called => ?_⟩ <;> cases called

private theorem received_keeps (task : BlockWrite) (block : Block) (packet : Packet) :
    (task.received block packet).task.opId = task.opId ∧ (task.received block packet).call = none := by
  unfold BlockWrite.received
  split
  · split <;> exact ⟨rfl, rfl⟩
  · exact ⟨rfl, rfl⟩
  · exact ⟨rfl, rfl⟩

/-- A block-wise write keeps its operation, and waits only under its own
token. -/
theorem blockWrite_keeps {task : BlockWrite} {choice : Choice} {outcome : ClientOutcome BlockWrite}
    (moved : task.step env s choice = some outcome) :
    outcome.task.opId = task.opId ∧
      (∀ addr token op, outcome.call ≠ some (.placeInFlight addr token op)) ∧
      ∀ token, outcome.call = some (.armBlock token) → token = task.token := by
  unfold BlockWrite.step at moved
  split at moved
  case h_1 =>
    dsimp only at moved
    split at moved
    · split at moved <;> cases moved
      all_goals refine ⟨rfl, fun _ _ _ called => ?_, fun _ called => ?_⟩ <;> cases called
    · cases moved
      refine ⟨rfl, fun _ _ _ called => ?_, fun _ called => ?_⟩ <;> cases called
  case h_2 =>
    cases moved
    refine ⟨rfl, fun _ _ _ called => ?_, fun _ armed => ?_⟩
    · cases called
    · cases armed
      rfl
  case h_4 =>
    split at moved
    · cases moved
      obtain ⟨id, call⟩ := received_keeps task _ _
      rw [call]
      refine ⟨id, fun _ _ _ called => ?_, fun _ called => ?_⟩ <;> cases called
    · cases moved
      refine ⟨rfl, fun _ _ _ called => ?_, fun _ called => ?_⟩ <;> cases called
    · split at moved <;> cases moved
      refine ⟨rfl, fun _ _ _ called => ?_, fun _ called => ?_⟩ <;> cases called
  case h_5 =>
    dsimp only at moved
    split at moved <;> cases moved
    all_goals refine ⟨rfl, fun _ _ _ called => ?_, fun _ called => ?_⟩ <;> cases called
  all_goals cases moved
  all_goals refine ⟨rfl, fun _ _ _ called => ?_, fun _ called => ?_⟩ <;> cases called

/-! ## A step of the gateway -/

/-- The three places an operation can be. -/
private theorem opIds_shrink (queue : g'.queue = g.queue)
    (flights : List.Subperm (held g'.server.devices.byId) (held g.server.devices.byId))
    (blocks : g'.blockWrites.all.map (·.opId) = g.blockWrites.all.map (·.opId)) :
    List.Subperm (opIds g') (opIds g) := by
  unfold opIds
  rw [queue, blocks]
  refine (List.subperm_append_left _).mpr ((List.subperm_append_right _).mpr ?_)
  obtain ⟨part, same, within⟩ := flights
  exact ⟨part.map (·.id), same.map (·.id), within.map (·.id)⟩

/-- A new operation joins the queue. -/
private theorem opIds_enqueue {addr : SocketAddr} {op : PendingOperation}
    (queue : g'.queue = g.queue ++ [(addr, op)])
    (flights : List.Subperm (held g'.server.devices.byId) (held g.server.devices.byId))
    (blocks : g'.blockWrites.all.map (·.opId) = g.blockWrites.all.map (·.opId)) :
    List.Subperm (opIds g') (op.id :: opIds g) := by
  have rest : List.Subperm
      (g.queue.map (·.2.id) ++ ((held g'.server.devices.byId).map (·.id) ++
        g'.blockWrites.all.map (·.opId))) (opIds g) :=
    @opIds_shrink g { g' with queue := g.queue } rfl flights blocks
  have joined : (opIds g').Perm (op.id :: (g.queue.map (·.2.id) ++
      ((held g'.server.devices.byId).map (·.id) ++ g'.blockWrites.all.map (·.opId)))) := by
    unfold opIds
    rw [queue, List.map_append, List.append_assoc]
    exact List.perm_middle
  exact joined.subperm.trans ((List.subperm_cons op.id).mpr rest)

/-- Nothing waits in the devices' own queues, so a heartbeat drains nothing. -/
theorem drainPending_empty {r : DeviceRegistry} (tidy : Tidy r.byId) (addr : SocketAddr) :
    ((r.drainPending addr).map (·.1)).getD [] = [] := by
  unfold drainPending
  split
  · rfl
  · rename_i id found
    cases stored : r.byId.lookup id with
    | none => rfl
    | some dev => exact (tidy id dev stored).1

private theorem afterRecv_queue (tidy : Tidy g.server.devices.byId) :
    g.afterRecv.queue = g.queue ∨ ∃ endpoint addr op, g.server.recv = .dispatchReset endpoint addr ∧
      op.id = g.internalOpId ∧ g.afterRecv.queue = g.queue ++ [(addr, op)] := by
  unfold Gateway.afterRecv
  split
  · rename_i endpoint addr position
    exact Or.inr ⟨endpoint, addr, _, position, rfl, rfl⟩
  · rename_i addr position
    left
    dsimp only
    rw [drainPending_empty tidy]
    exact List.append_nil _
  · split <;> exact Or.inl rfl
  · exact Or.inl rfl

private theorem afterRecv_blocks (g : Gateway) : g.afterRecv.blockWrites = g.blockWrites := by
  unfold Gateway.afterRecv
  split
  · rfl
  · rfl
  · split <;> rfl
  · rfl

theorem flights_called {call : Option ClientCall} {server : Server}
    (tidy : Tidy s.devices.byId) (called : Gateway.call env s call = some server)
    (other : ∀ addr token op, call ≠ some (.placeInFlight addr token op)) :
    Tidy server.devices.byId ∧ List.Subperm (held server.devices.byId) (held s.devices.byId) := by
  cases call with
  | none =>
    cases called
    exact ⟨tidy, .refl _⟩
  | some call =>
    simp only [Gateway.call] at called
    refine held_step tidy called fun addr token op equal => ?_
    cases equal
    exact other addr token op rfl

/-- The dispatch task puts an operation in flight: its id moves on. -/
private theorem placed_ids {addr : SocketAddr} {op : PendingOperation} {server : Server}
    (tidy : Tidy s.devices.byId) (unused : ∀ other ∈ held s.devices.byId, other.id ≠ op.id)
    (placed : s.step env (.client (.placeInFlight addr (tokenOfId op.id)
      { op with attempts := op.attempts + 1 })) = some server) :
    Tidy server.devices.byId ∧
      List.Subperm ((held server.devices.byId).map (·.id)) (op.id :: (held s.devices.byId).map (·.id)) := by
  cases placed
  simp only [Server.clientStep]
  cases accepted : accepts s.devices addr with
  | false =>
    rw [place_refused accepted]
    exact ⟨tidy, (List.sublist_cons_self _ _).subperm⟩
  | true =>
    obtain ⟨kept, joined⟩ := @place_conserves s.devices addr { op with attempts := op.attempts + 1 }
      tidy accepted unused
    exact ⟨kept, (joined.map (·.id)).subperm⟩

/-- **A step hands out at most one id**, and otherwise moves ids on or drops
them. -/
theorem ids_step (tidy : Tidy g.server.devices.byId) (nodup : (opIds g).Nodup)
    (ran : g.step env act = some g') :
    Tidy g'.server.devices.byId ∧ List.Subperm (opIds g') (handedIds g act ++ opIds g) := by
  have still (kept : Tidy g'.server.devices.byId) (shrunk : List.Subperm (opIds g') (opIds g)) :
      Tidy g'.server.devices.byId ∧ List.Subperm (opIds g') (handedIds g act ++ opIds g) :=
    ⟨kept, shrunk.trans (List.sublist_append_right _ _).subperm⟩
  cases gateway_move ran with
  | setClass => exact still tidy (.refl (opIds g))
  | receive stepped | phase stepped | housekeeping stepped =>
    obtain ⟨kept, flights⟩ := held_step tidy stepped (by simp)
    exact still kept (opIds_shrink rfl flights rfl)
  | server quiet stepped =>
    obtain ⟨kept, flights⟩ := held_step tidy stepped (by rintro _ _ _ rfl; cases quiet)
    exact still kept (opIds_shrink rfl flights rfl)
  | @recv choice server armed transmissions stepped =>
    obtain ⟨kept, flights⟩ := held_step tidy stepped (by simp)
    rcases afterRecv_queue tidy with same | ⟨endpoint, addr, op, position, named, joined⟩
    · exact still kept (opIds_shrink same flights (by rw [afterRecv_blocks]))
    · have handed : handedIds g (.server (.recv choice)) = [op.id] := by
        simp only [handedIds, handsOut, position, named]
      refine ⟨kept, ?_⟩
      rw [handed]
      exact opIds_enqueue joined flights (by rw [afterRecv_blocks])
  | @ping addr pings waiting =>
    let op := PendingOperation.new g.nextPingOpId (.execute pingPath none) g.channels g.server.clock
    have handed : handedIds g .ping = [op.id] := rfl
    refine ⟨tidy, ?_⟩
    rw [handed]
    exact opIds_enqueue rfl (.refl _) rfl
  | @request command addr firstAck channels op fresh same =>
    have handed : handedIds g (.request addr command firstAck) = [op.id] := by
      rw [fresh]
      rfl
    refine ⟨tidy, ?_⟩
    rw [handed]
    exact opIds_enqueue rfl (.refl _) rfl
  | @unsendable addr op queue midCounter answers waiting =>
    refine still tidy ?_
    unfold opIds
    rw [waiting]
    exact (List.sublist_cons_self _ _).subperm
  | @block addr op queue path value format task midCounter waiting command large named peer pc =>
    refine still tidy ?_
    unfold opIds Tasks.spawn
    rw [waiting, List.map_append, List.map_cons, List.map_cons, named]
    simp only [List.map_nil, ← List.append_assoc, List.cons_append]
    exact (List.perm_append_singleton _ _).subperm
  | @single addr op queue server task midCounter waiting placed pc =>
    have unused : ∀ other ∈ held g.server.devices.byId, other.id ≠ op.id := by
      intro other member same
      unfold opIds at nodup
      rw [waiting, List.map_cons, List.cons_append] at nodup
      refine (List.nodup_cons.mp nodup).1 ?_
      rw [← same]
      exact List.mem_append_right _ (List.mem_append_left _ (List.mem_map_of_mem member))
    obtain ⟨kept, flights⟩ := placed_ids tidy unused placed
    refine still kept ?_
    unfold opIds
    rw [waiting, List.map_cons, List.cons_append]
    refine List.Subperm.trans ?_ List.perm_middle.subperm
    exact (List.subperm_append_left _).mpr ((List.subperm_append_right _).mpr flights)
  | retransmit at_ moved called =>
    obtain ⟨kept, flights⟩ := flights_called tidy called (retransmission_calls moved).1
    exact still kept (opIds_shrink rfl flights rfl)
  | blockWrite at_ moved called =>
    obtain ⟨id, other, -⟩ := blockWrite_keeps moved
    obtain ⟨kept, flights⟩ := flights_called tidy called other
    exact still kept (opIds_shrink rfl flights (Tasks.map_update _ at_ _ id))

/-! ## The counters -/

/-- The value a counter hands out next. -/
def current (g : Gateway) : Counter → UInt32
  | .nextOp => g.nextOpId
  | .internal => g.internalOpId
  | .ping => g.nextPingOpId
  | .token => g.server.boot.tokenCounter

theorem handsOut_current {counter : Counter} {value : UInt32}
    (hands : handsOut g act = some (counter, value)) : value = current g counter := by
  unfold handsOut at hands
  split at hands
  · cases hands
    rfl
  · cases hands
    rfl
  · split at hands
    · cases hands
      rfl
    · split at hands <;> cases hands
      rfl
    · cases hands
  · obtain ⟨task, -, hands⟩ := Option.bind_eq_some_iff.mp hands
    split at hands <;> cases hands
    rfl
  · cases hands

/-- A counter after a step. -/
def advanced (counter : Counter) (g : Gateway) (act : GatewayAction) (value : UInt32) : UInt32 :=
  if (handsOut g act).any (·.1 = counter) then value + 1 else value

/-- A step that hands out no operation id leaves the three counters alone. -/
private theorem advanced_still {value : UInt32} {counter : Counter} (other : counter ≠ .token)
    (hands : handsOut g act = none ∨ ∃ token, handsOut g act = some (.token, token)) :
    value = advanced counter g act value := by
  unfold advanced
  rcases hands with none | ⟨token, some⟩
  · rw [none]
    rfl
  · rw [some, Option.any_some, decide_eq_false (Ne.symm other)]
    rfl

private theorem afterRecv_counters (g : Gateway) (choice : Choice) :
    g.afterRecv.nextOpId = advanced .nextOp g (.server (.recv choice)) g.nextOpId ∧
      g.afterRecv.internalOpId = advanced .internal g (.server (.recv choice)) g.internalOpId ∧
      g.afterRecv.nextPingOpId = advanced .ping g (.server (.recv choice)) g.nextPingOpId := by
  cases position : g.server.recv with
  | begin endpoint addr =>
    have hands : handsOut g (.server (.recv choice)) = none ∨
        ∃ token, handsOut g (.server (.recv choice)) = some (.token, token) := by
      simp only [handsOut, position]
      split
      · exact Or.inr ⟨_, rfl⟩
      · exact Or.inl rfl
    have same : g.afterRecv.nextOpId = g.nextOpId ∧ g.afterRecv.internalOpId = g.internalOpId ∧
        g.afterRecv.nextPingOpId = g.nextPingOpId := by
      simp only [Gateway.afterRecv, position]
      split <;> exact ⟨rfl, rfl, rfl⟩
    rw [same.1, same.2.1, same.2.2]
    exact ⟨advanced_still nofun hands, advanced_still nofun hands, advanced_still nofun hands⟩
  | _ =>
    simp only [Gateway.afterRecv, advanced, handsOut, position]
    exact ⟨rfl, rfl, rfl⟩

/-- The three id counters advance exactly when they hand out a value. -/
theorem counters_step (ran : g.step env act = some g') :
    g'.nextOpId = advanced .nextOp g act g.nextOpId ∧
      g'.internalOpId = advanced .internal g act g.internalOpId ∧
      g'.nextPingOpId = advanced .ping g act g.nextPingOpId := by
  have still (hands : handsOut g act = none ∨ ∃ token, handsOut g act = some (.token, token))
      (same : g'.nextOpId = g.nextOpId ∧ g'.internalOpId = g.internalOpId ∧
        g'.nextPingOpId = g.nextPingOpId) :
      g'.nextOpId = advanced .nextOp g act g.nextOpId ∧
        g'.internalOpId = advanced .internal g act g.internalOpId ∧
        g'.nextPingOpId = advanced .ping g act g.nextPingOpId := by
    rw [same.1, same.2.1, same.2.2]
    exact ⟨advanced_still nofun hands, advanced_still nofun hands, advanced_still nofun hands⟩
  cases gateway_move ran with
  | recv => exact afterRecv_counters g _
  | ping => exact ⟨rfl, rfl, rfl⟩
  | request => exact ⟨rfl, rfl, rfl⟩
  | @phase i choice server armed transmissions stepped =>
    refine still ?_ ⟨rfl, rfl, rfl⟩
    simp only [handsOut]
    cases g.server.phases.get? i with
    | none => exact Or.inl rfl
    | some task =>
      rw [Option.bind_some]
      split
      · exact Or.inr ⟨_, rfl⟩
      · exact Or.inl rfl
  | @server action server quiet stepped =>
    refine still (Or.inl ?_) ⟨rfl, rfl, rfl⟩
    cases action with
    | recv => cases quiet
    | phase => cases quiet
    | _ => rfl
  | _ => exact still (Or.inl rfl) ⟨rfl, rfl, rfl⟩

/-! ## The channels of block-wise writes -/

/-- Every channel waits under the token of a block-wise write. -/
def BlocksOwned (g : Gateway) : Prop :=
  ∀ token, (g.server.blockAcks.lookup token).isSome →
    ∃ id ∈ g.blockWrites.all.map (·.opId), token = tokenOfId id

/-- A channel is put into the map only by the block-wise write it belongs to. -/
theorem blockAcks_step {probe : Token} (ran : s.step env action = some next)
    (held : (next.blockAcks.lookup probe).isSome) :
    (s.blockAcks.lookup probe).isSome ∨ action = .client (.armBlock probe) := by
  cases block_move ran with
  | same acks => exact Or.inl (acks ▸ held)
  | answered _ _ acks =>
    rw [acks, Table.lookup_erase_if] at held
    split at held
    · cases held
    · exact Or.inl held
  | disarmed token acks =>
    rw [acks, disarm_lookup] at held
    split at held
    · cases held
    · exact Or.inl held
  | armed token acks =>
    rw [acks, Table.lookup_insert_if] at held
    split at held
    · rename_i same
      rw [same]
      exact Or.inr rfl
    · exact Or.inl held

theorem blocksOwned_step (owned : BlocksOwned g) (ran : g.step env act = some g') : BlocksOwned g' := by
  intro token held
  have old (before : (g.server.blockAcks.lookup token).isSome)
      (grown : ∀ id ∈ g.blockWrites.all.map (·.opId), id ∈ g'.blockWrites.all.map (·.opId)) :
      ∃ id ∈ g'.blockWrites.all.map (·.opId), token = tokenOfId id := by
    obtain ⟨id, member, named⟩ := owned token before
    exact ⟨id, grown id member, named⟩
  cases gateway_move ran with
  | setClass | ping | request | unsendable => exact old held fun _ member => member
  | block =>
    refine old held fun id member => ?_
    simp only [Tasks.spawn, List.map_append]
    exact List.mem_append_left _ member
  | receive stepped | phase stepped | housekeeping stepped | single _ stepped =>
    rcases blockAcks_step stepped held with before | armed
    · exact old before fun _ member => member
    · cases armed
  | recv stepped =>
    rcases blockAcks_step stepped held with before | armed
    · exact old before fun id member => by rwa [afterRecv_blocks]
    · cases armed
  | server quiet stepped =>
    rcases blockAcks_step stepped held with before | rfl
    · exact old before fun _ member => member
    · cases quiet
  | @retransmit i task choice outcome server armed transmissions at_ moved called =>
    cases call : outcome.call with
    | none =>
      rw [call] at called
      cases called
      exact old held fun _ member => member
    | some made =>
      rw [call, Gateway.call] at called
      rcases blockAcks_step called held with before | armed
      · exact old before fun _ member => member
      · cases armed
        exact ((retransmission_calls moved).2 token call).elim
  | @blockWrite i task choice outcome server armed transmissions answers at_ moved called =>
    obtain ⟨id, -, own⟩ := blockWrite_keeps moved
    have same := Tasks.map_update _ at_ (·.opId) id
    cases call : outcome.call with
    | none =>
      rw [call] at called
      cases called
      exact old held fun _ member => same ▸ member
    | some made =>
      rw [call, Gateway.call] at called
      rcases blockAcks_step called held with before | armed
      · exact old before fun _ member => same ▸ member
      · cases armed
        refine ⟨task.opId, ?_, own token call⟩
        rw [same]
        exact List.mem_map_of_mem (List.mem_of_getElem? at_)

end Lwm2mServer.OperationIds
