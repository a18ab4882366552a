import Lwm2mServer.Storage

/-! What one step of the storage layer can do, said once: what a step of the
server leaves to be saved (`Leaves`), what a task that saves reads and spawns
(`TailMove`), and what a file operation does to the operations still to come
(`run_move`). -/
namespace Lwm2mServer.StorageSteps
open Library StartUp Storage StateDirectory

/-- A task of the server ends here without anything to save. -/
structure Silent (before : Server) (action : Action) : Prop where
  asked : ∀ choice endpoint addr, action = .recv choice → before.recv = .askIncluded endpoint addr →
    before.boot.isIncluded endpoint = false
  merged : ∀ choice report addr, action = .recv choice → before.recv = .mergeReport report addr →
    before.devices.mergeDeviceStateByAddr addr report = none
  marked : ∀ i choice task, action = .phase i choice → before.phases.get? i = some task →
    task.pc ≠ .mark
  persisted : ∀ i task, action = .exclusion i → before.exclusions.get? i = some task →
    task.pc ≠ .persist

/-- Everything a step of the server from `before` can leave to be saved. -/
inductive Leaves (s : Storage) (before : Server) : Action → Storage → Prop where
  | nothing (silent : Silent before action) : Leaves s before action s
  | asked (position : before.recv = .askIncluded endpoint addr)
      (included : before.boot.isIncluded endpoint) :
      Leaves s before (.recv choice) (s.spawnRecvTail (.registry endpoint))
  | removed (position : before.recv = .deregister addr)
      (found : (before.devices.removeByAddr addr).1 = some endpoint) :
      Leaves s before (.recv choice) (s.spawnRecvTail (.registry endpoint))
  | reporter (position : before.recv = .findReporter payload addr)
      (found : before.devices.endpointByAddr addr = some (some endpoint)) :
      Leaves s before (.recv choice) { s with reporter := endpoint }
  | merged (position : before.recv = .mergeReport report addr)
      (ran : before.devices.mergeDeviceStateByAddr addr report = some (state, devices)) :
      Leaves s before (.recv choice)
        { s.spawnJob [.saveDeviceState s.reporter state] with
          reports := (s.reporter, report) :: s.reports }
  | marked (held : before.phases.get? i = some task) (pc : task.pc = .mark) :
      Leaves s before (.phase i choice) (s.spawnTail .included)
  | persisted (held : before.exclusions.get? i = some task) (pc : task.pc = .persist) :
      Leaves s before (.exclusion i) (s.spawnTail (.exclusion task.device))
  | reset (held : before.removals.get? i = some task) :
      Leaves s before (.removal i) (s.spawnTail (.registry task.endpoint))

variable {env : Env} {sessionTo : String} {wall : Nat} {s next : Storage} {before : Server}
  {action : Action}

private theorem silent_recv {choice : Choice}
    (asked : ∀ endpoint addr, before.recv = .askIncluded endpoint addr →
      before.boot.isIncluded endpoint = false)
    (merged : ∀ report addr, before.recv = .mergeReport report addr →
      before.devices.mergeDeviceStateByAddr addr report = none) : Silent before (.recv choice) :=
  ⟨fun _ endpoint addr _ => asked endpoint addr, fun _ report addr _ => merged report addr,
    fun _ _ _ other => (by cases other), fun _ _ other => (by cases other)⟩

theorem leaves_afterStep (s : Storage) (before : Server) (action : Action) :
    Leaves s before action (s.afterStep before action) := by
  cases action with
  | recv choice =>
    simp only [afterStep, afterRecv]
    split
    · rename_i endpoint addr position
      split
      · rename_i included
        exact .asked position included
      · rename_i absent
        refine .nothing (silent_recv (fun endpoint' addr' here => ?_) fun _ _ here => ?_)
        · rw [position] at here
          cases here
          exact Bool.eq_false_iff.mpr absent
        · rw [position] at here
          cases here
    · rename_i addr position
      split
      · rename_i endpoint found
        exact .removed position found
      · exact .nothing (silent_recv (by simp [position]) (by simp [position]))
    · rename_i payload addr position
      split
      · rename_i endpoint found
        exact .reporter position found
      · exact .nothing (silent_recv (by simp [position]) (by simp [position]))
    · rename_i report addr position
      split
      · rename_i state devices ran
        exact .merged position ran
      · rename_i failed
        refine .nothing (silent_recv (by simp [position]) fun report' addr' here => ?_)
        rw [position] at here
        cases here
        exact failed
    · rename_i notAsked _ _ notMerge
      exact .nothing (silent_recv (fun endpoint addr here => absurd here (notAsked endpoint addr))
        fun report addr here => absurd here (notMerge report addr))
  | phase i choice =>
    simp only [afterStep]
    split
    · rename_i task held
      split
      · rename_i pc
        exact .marked held pc
      · rename_i other
        refine .nothing ⟨by simp, by simp, fun j _ found same held' => ?_, by simp⟩
        cases same
        rw [held] at held'
        cases held'
        exact other
    · rename_i none_
      refine .nothing ⟨by simp, by simp, fun j _ found same held' => ?_, by simp⟩
      cases same
      rw [none_] at held'
      cases held'
  | exclusion i =>
    simp only [afterStep]
    split
    · rename_i task held
      split
      · rename_i pc
        exact .persisted held pc
      · rename_i other
        refine .nothing ⟨by simp, by simp, by simp, fun j found same held' => ?_⟩
        cases same
        rw [held] at held'
        cases held'
        exact other
    · rename_i none_
      refine .nothing ⟨by simp, by simp, by simp, fun j found same held' => ?_⟩
      cases same
      rw [none_] at held'
      cases held'
  | removal i =>
    simp only [afterStep]
    split
    · rename_i task held
      exact .reset held
    · exact .nothing ⟨by simp, by simp, by simp, by simp⟩
  | _ => exact .nothing ⟨by simp, by simp, by simp, by simp⟩

/-- A step of the storage layer that is one of the server. -/
theorem server_move (ran : s.step env sessionTo wall (.server action) = some next) :
    ∃ server, s.server.step env action = some server ∧ s.busy action = false ∧
      Leaves { s with server } s.server action next := by
  simp only [step] at ran
  split at ran
  · cases ran
  · rename_i free
    obtain ⟨server, stepped, rfl⟩ := Option.map_eq_some_iff.mp ran
    exact ⟨server, stepped, Bool.eq_false_iff.mpr free, leaves_afterStep _ _ _⟩

/-- The operation a spawned task does next. -/
def nextOp (s : Storage) (index : Nat) : Option DiskOp := (s.jobs[index]?).bind List.head?

theorem nextOp_of_found {op : DiskOp} {rest : List DiskOp} {index : Nat}
    (found : s.jobs[index]? = some (op :: rest)) : nextOp s index = some op := by
  rw [nextOp, found, Option.bind_some, List.head?_cons]

/-- A file operation is taken out of those to come, the first one if the oldest
task runs. -/
theorem run_move {index : Nat} (ran : s.runStep sessionTo index = some next) :
    ∃ op rest front back, s.jobs[index]? = some (op :: rest) ∧
      s.jobs.flatten = front ++ op :: back ∧ next.jobs.flatten = front ++ back ∧
      (index = 0 → front = []) ∧
      next = { s with dir := s.dir.apply sessionTo op, jobs := next.jobs } := by
  unfold runStep at ran
  split at ran
  · rename_i op rest found
    cases ran
    obtain ⟨bound, held⟩ := List.getElem?_eq_some_iff.mp found
    have split : s.jobs = s.jobs.take index ++ (op :: rest) :: s.jobs.drop (index + 1) := by
      rw [← held, List.getElem_cons_drop, List.take_append_drop]
    refine ⟨op, rest, (s.jobs.take index).flatten, rest ++ (s.jobs.drop (index + 1)).flatten, found,
      ?_, ?_, ?_, rfl⟩
    · conv_lhs => rw [split]
      simp
    · dsimp only
      split
      · rename_i last
        rw [last, List.eraseIdx_eq_take_drop_succ]
        simp
      · rw [List.set_eq_take_append_cons_drop, if_pos bound]
        simp
    · rintro rfl
      simp
  · cases ran

/-! ## Operations on the files -/

section Files
variable {dir : StateDir} {op : DiskOp} {place : List String}

theorem follows_apply : Follows dir.files (dir.apply sessionTo op).files := by
  cases op with
  | saveRegistry snapshots => exact follows_writeRegistry
  | saveIncluded read endpoints => exact follows_writeIncluded
  | saveDeviceState endpoint state => exact follows_saveDeviceState
  | deleteDeviceState endpoint => exact follows_deleteDeviceState

theorem content_apply_other (loadable : Loadable place) (elsewhere : dir.target op ≠ some place) :
    (dir.apply sessionTo op).content place = dir.content place := by
  cases op with
  | saveRegistry snapshots =>
    apply (content_writeRegistry loadable).trans
    exact if_neg fun same => elsewhere (congrArg some same.symm)
  | saveIncluded read endpoints =>
    exact content_writeIncluded_other loadable fun same => elsewhere (congrArg some same.symm)
  | saveDeviceState endpoint state => exact content_saveDeviceState_other loadable elsewhere
  | deleteDeviceState endpoint => exact content_deleteDeviceState.trans (if_neg elsewhere)

theorem savesTo_foldl (ops : List DiskOp) (dir : StateDir) :
    (ops.foldl (StateDir.apply sessionTo) dir).savesTo = dir.savesTo := by
  induction ops generalizing dir with
  | nil => rfl
  | cons op rest ih => exact (ih _).trans (savesTo_of_follows follows_apply)

end Files

/-- The operations that a task spawns when it has read all it saves. -/
inductive Spawns (wall : Nat) (s : Storage) : DiskOp → Prop where
  | registry : Spawns wall s (.saveRegistry (s.snapshot wall))
  | included (number : Nat) (endpoints : List String) : Spawns wall s (.saveIncluded number endpoints)
  | excluded (device : String) : Spawns wall s (.deleteDeviceState device)

/-- Everything one read of a task that saves can do. -/
inductive TailMove (wall : Nat) (s : Storage) (id : Nat) (order : List String) : Storage → Prop where
  | registry (held : s.tails.get? id = some (.registry endpoint)) :
      TailMove wall s id order { s.spawnJob [.saveRegistry (s.snapshot wall)] with
        tails := s.tails.update id .finished
        recvTail := if s.recvTail = some id then none else s.recvTail }
  | included (held : s.tails.get? id = some .included)
      (listed : order.toFinset = s.server.boot.included) :
      TailMove wall s id order { s.spawnJob [.saveIncluded s.reads order] with
        tails := s.tails.update id .finished
        reads := s.reads + 1 }
  | exclusion (held : s.tails.get? id = some (.exclusion device))
      (listed : order.toFinset = s.server.boot.included) :
      TailMove wall s id order { s with
        tails := s.tails.update id (.excluded device s.reads order)
        reads := s.reads + 1 }
  | excluded {device : String} {read : Nat} {endpoints : List String}
      (held : s.tails.get? id = some (.excluded device read endpoints)) :
      TailMove wall s id order { s.spawnJob [.saveIncluded read endpoints, .deleteDeviceState device,
          .saveRegistry (s.snapshot wall)] with
        tails := s.tails.update id .finished }

theorem tail_cases {i : Nat} {order : List String} (ran : s.tailStep wall i order = some next) :
    TailMove wall s i order next := by
  obtain ⟨tail, held, ran⟩ := Option.bind_eq_some_iff.mp ran
  dsimp only at ran
  cases tail with
  | registry endpoint =>
    cases ran
    exact .registry held
  | included =>
    obtain ⟨listed, ran⟩ := Option.ite_none_right_eq_some.mp ran
    cases ran
    exact .included held listed.1
  | exclusion device =>
    obtain ⟨listed, ran⟩ := Option.ite_none_right_eq_some.mp ran
    cases ran
    exact .exclusion held listed.1
  | excluded device read endpoints =>
    cases ran
    exact .excluded held
  | finished => cases ran

/-- A task that saves reads its part, and spawns its operations if it was the
last one. -/
theorem tail_move {i : Nat} {order : List String} (ran : s.tailStep wall i order = some next) :
    ∃ ops, (∀ op ∈ ops, Spawns wall s op) ∧ next.jobs.flatten = s.jobs.flatten ++ ops ∧
      next.server = s.server ∧ next.dir = s.dir ∧ next.reports = s.reports := by
  cases tail_cases ran with
  | registry =>
    refine ⟨[.saveRegistry (s.snapshot wall)], ?_, by simp [spawnJob], rfl, rfl, rfl⟩
    exact List.forall_mem_singleton.mpr .registry
  | included =>
    refine ⟨[.saveIncluded s.reads order], ?_, by simp [spawnJob], rfl, rfl, rfl⟩
    exact List.forall_mem_singleton.mpr (.included _ _)
  | exclusion => exact ⟨[], by simp, by simp, rfl, rfl, rfl⟩
  | @excluded device read endpoints =>
    refine ⟨[.saveIncluded read endpoints, .deleteDeviceState device,
      .saveRegistry (s.snapshot wall)], ?_, by simp [spawnJob], rfl, rfl, rfl⟩
    simp only [List.forall_mem_cons]
    exact ⟨.included _ _, .excluded _, .registry, by simp⟩

end Lwm2mServer.StorageSteps
