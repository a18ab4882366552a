import Lwm2mServer.IncludedSet
import Lwm2mServer.StorageSteps

/-! The included list on disk. Every change of the included set is followed by
a read of the whole set by the task that made the change, and the list it read
is written by a task of its own. The newest list read is up to date once no
read is owed, so the file is right as long as no older list is written after
the newest one, and nothing else goes to the file. -/
namespace Lwm2mServer.SavedInclusions
open Library StartUp Storage StorageSteps StateDirectory

variable {env : Env} {sessionTo : String} {wall : Nat} {s next : Storage} {action : Action}

/-! ## What is outstanding -/

/-- The exclusion has changed the set and has not come to its reads. -/
def readsLater : ExclusionPc → Bool
  | .deregister _ | .persist => true
  | _ => false

def readsList : Tail → Bool
  | .included | .exclusion _ => true
  | _ => false

/-- A task that has changed the included set still has to read it. -/
def Owed (s : Storage) : Prop :=
  (∃ tail ∈ s.tails.all, readsList tail) ∨ ∃ task ∈ s.server.exclusions.all, readsLater task.pc

def opList : DiskOp → Option (Nat × List String)
  | .saveIncluded read endpoints => some (read, endpoints)
  | _ => none

def tailList : Tail → Option (Nat × List String)
  | .excluded _ read endpoints => some (read, endpoints)
  | _ => none

/-- The lists that were read and are not yet written, with their numbers. -/
def lists (s : Storage) : List (Nat × List String) :=
  s.jobs.flatten.filterMap opList ++ s.tails.all.filterMap tailList

/-- What goes to the file of the list is a list, the newest one or one that is
written while the newest one is not written yet. -/
def newestLast (s : Storage) : StorageAction → Bool
  | .run index => (nextOp s index).all fun op => s.dir.target op = some includedFile →
    (opList op).any fun list => list.1 + 1 = s.reads ∨ s.reads - 1 ∈ (lists s).map Prod.fst
  | _ => true

def NewestLast (s : Storage) (action : StorageAction) : Prop := newestLast s action = true

instance (s : Storage) (action : StorageAction) : Decidable (NewestLast s action) :=
  inferInstanceAs (Decidable (_ = _))

/-- The server as it starts where the list can be saved and no orphan's path
leads to it. -/
def machine (env : Env) (sessionTo : String) (wall : Nat) : Machine Storage StorageAction where
  start s := ∃ seed serverUri clock dir, ListSavable dir ∧
    ¬ OrphanAt (wall + clock / 1000000000) (loadIncluded dir.included.document) dir includedFile ∧
      s = started sessionTo wall seed serverUri clock dir
  step := step env sessionTo wall

/-- The list on disk, as a set. -/
def onDisk (s : Storage) : Finset String := (loadIncluded s.dir.included.document).toFinset

/-- Once all changes have been read and written, the file has the included
set. -/
def ListSaved (s : Storage) : Prop :=
  ¬ Owed s → lists s = [] → onDisk s = s.server.boot.included

/-- `latest` is the list that was read last, or loaded at the start. -/
structure Current (s : Storage) (latest : List String) : Prop where
  savable : ListSavable s.dir
  known : Owed s ∨ latest.toFinset = s.server.boot.included
  saved : (0 < s.reads ∧ (s.reads - 1, latest) ∈ lists s) ∨ onDisk s = latest.toFinset
  newest : ∀ list ∈ lists s, list.1 < s.reads ∧ (list.1 + 1 = s.reads → list.2 = latest)

/-! ## Steps of the server -/

private theorem lists_spawnTail {tail : Tail} (silent : tailList tail = none) :
    lists (s.spawnTail tail) = lists s := by
  simp [lists, spawnTail, Tasks.spawn, silent]

/-- A step of the server neither reads nor writes a list, and no task that is
about to read goes away. -/
private theorem unread {before : Server} (left : Leaves s before action next) :
    lists next = lists s ∧ next.reads = s.reads ∧ next.dir = s.dir ∧ next.server = s.server ∧
      ∀ tail ∈ s.tails.all, tail ∈ next.tails.all := by
  have grow (new : Tail) : ∀ tail ∈ s.tails.all, tail ∈ (s.spawnTail new).tails.all :=
    fun _ member => List.mem_append_left _ member
  cases left with
  | nothing | reporter => exact ⟨rfl, rfl, rfl, rfl, fun _ member => member⟩
  | asked | removed => exact ⟨@lists_spawnTail s (.registry _) rfl, rfl, rfl, rfl, grow _⟩
  | marked | persisted | reset => exact ⟨lists_spawnTail rfl, rfl, rfl, rfl, grow _⟩
  | merged =>
    refine ⟨?_, rfl, rfl, rfl, fun _ member => member⟩
    simp [lists, spawnJob, opList]

/-- A task that is replaced in its place, and the others. -/
private theorem mem_update {τ : Type} {tasks : Tasks τ} {id : Nat} {old new : τ}
    (held : tasks.get? id = some old) {task : τ} (member : task ∈ tasks.all) :
    new ∈ (tasks.update id new).all ∧ (task = old ∨ task ∈ (tasks.update id new).all) := by
  have moved := tasks.get?_update held new
  constructor
  · exact List.mem_of_getElem? ((moved id).trans (if_pos rfl))
  · obtain ⟨j, found⟩ := List.mem_iff_getElem?.mp member
    by_cases same : j = id
    · subst same
      exact Or.inl (Option.some.inj (found.symm.trans held))
    · exact Or.inr (List.mem_of_getElem? (((moved j).trans (if_neg same)).trans found))

/-- An exclusion owes a read from `unmark_included` on, until it comes to its
reads. -/
private theorem exclusion_owes {server server' : Server} {i : Nat}
    (ran : server.exclusionStep i = some server') :
    (server'.boot.included = server.boot.included ∨
      ∃ task ∈ server'.exclusions.all, readsLater task.pc) ∧
      ((∃ task ∈ server.exclusions.all, readsLater task.pc) →
        (∃ task ∈ server'.exclusions.all, readsLater task.pc) ∨
          ∃ task, server.exclusions.get? i = some task ∧ task.pc = .persist) := by
  obtain ⟨task, held, ran⟩ := Option.bind_eq_some_iff.mp ran
  have here := List.mem_of_getElem? held
  -- a position that owes no read is left for one that may, so only others matter
  have others {pc : ExclusionPc} (same : readsLater task.pc = false) :
      (∃ task ∈ server.exclusions.all, readsLater task.pc) →
        ∃ found ∈ (server.exclusions.update i { task with pc }).all, readsLater found.pc := by
    rintro ⟨found, member, later⟩
    rcases (mem_update held member).2 with rfl | kept
    · rw [same] at later
      cases later
    · exact ⟨found, kept, later⟩
  have mine {pc : ExclusionPc} (later : readsLater pc) :
      ∃ found ∈ (server.exclusions.update i { task with pc }).all, readsLater found.pc :=
    ⟨_, (mem_update held here).1, later⟩
  cases pc : task.pc with
  | findAddr =>
    simp only [pc] at ran
    obtain ⟨found, -, ran⟩ := Option.bind_eq_some_iff.mp ran
    cases found <;> cases ran <;>
      exact ⟨Or.inl rfl, fun owed => Or.inl (others (by rw [pc]; rfl) owed)⟩
  | waitDevice addr =>
    simp only [pc] at ran
    cases ran
    exact ⟨Or.inl rfl, fun owed => Or.inl (others (by rw [pc]; rfl) owed)⟩
  | unmark addr =>
    simp only [pc] at ran
    cases ran
    exact ⟨Or.inr (mine rfl), fun _ => Or.inl (mine rfl)⟩
  | deregister addr =>
    simp only [pc] at ran
    cases addr <;> cases ran <;> exact ⟨Or.inl rfl, fun _ => Or.inl (mine rfl)⟩
  | persist =>
    simp only [pc] at ran
    cases ran
    exact ⟨Or.inl rfl, fun _ => Or.inr ⟨task, held, pc⟩⟩
  | finished =>
    simp only [pc] at ran
    cases ran

/-- A step of the server that changes the included set leaves a read owed, and
a read that was owed stays so. -/
private theorem owed_server (ran : s.step env sessionTo wall (.server action) = some next) :
    (Owed s ∨ next.server.boot.included ≠ s.server.boot.included) → Owed next := by
  obtain ⟨server, stepped, -, left⟩ := server_move ran
  obtain ⟨-, -, -, same, kept⟩ := unread left
  rw [same]
  have tails : (∃ tail ∈ s.tails.all, readsList tail) → Owed next := by
    rintro ⟨tail, member, reads⟩
    exact Or.inl ⟨tail, kept tail member, reads⟩
  -- the tail that a task leaves behind when it is done with the server's state
  have spawned {tail : Tail} (reads : readsList tail)
      (here : next.tails.all = s.tails.all ++ [tail]) : Owed next :=
    Or.inl ⟨tail, by rw [here]; exact List.mem_append_right _ List.mem_cons_self, reads⟩
  have untouched (exclusions : server.exclusions = s.server.exclusions) :
      (∃ task ∈ s.server.exclusions.all, readsLater task.pc) → Owed next := by
    rintro ⟨task, member, later⟩
    exact Or.inr ⟨task, by rw [same]; exact exclusions ▸ member, later⟩
  cases action with
  | exclusion i =>
    obtain ⟨changed, was⟩ := exclusion_owes stepped
    have later : (∃ task ∈ server.exclusions.all, readsLater task.pc) → Owed next := fun owed =>
      Or.inr (same ▸ owed)
    rintro ((owed | owed) | moved)
    · exact tails owed
    · rcases was owed with owed | ⟨task, held, pc⟩
      · exact later owed
      · cases left with
        | nothing silent => exact absurd pc (silent.persisted i task rfl held)
        | persisted => exact spawned rfl rfl
    · exact later (changed.resolve_left moved)
  | excludeDevice device =>
    cases stepped
    rintro ((owed | ⟨task, member, later⟩) | moved)
    · exact tails owed
    · refine Or.inr ⟨task, ?_, later⟩
      rw [same]
      exact List.mem_append_left _ member
    · exact absurd rfl moved
  | phase i choice =>
    rintro ((owed | owed) | moved)
    · exact tails owed
    · exact untouched (IncludedSet.exclusions_step stepped (by simp) (by simp)) owed
    · rcases IncludedSet.included_step stepped with kept | ⟨_, _, task, here, held, pc, -⟩ | ⟨_, other, -⟩
      · exact absurd kept moved
      · cases here
        cases left with
        | nothing silent => exact absurd pc (silent.marked _ _ task rfl held)
        | marked => exact spawned rfl rfl
      · cases other
  | _ =>
    rintro ((owed | owed) | moved)
    · exact tails owed
    · exact untouched (IncludedSet.exclusions_step stepped (by simp) (by simp)) owed
    · rcases IncludedSet.included_step stepped with kept | ⟨_, _, _, other, _⟩ | ⟨_, other, -⟩
      · exact absurd kept moved
      · cases other
      · cases other

private theorem current_server {latest : List String} (current : Current s latest)
    (ran : s.step env sessionTo wall (.server action) = some next) : Current next latest := by
  have owed := owed_server ran
  obtain ⟨server, stepped, -, left⟩ := server_move ran
  obtain ⟨lists, reads, dir, same, -⟩ := unread left
  refine ⟨dir ▸ current.savable, ?_, ?_, ?_⟩
  · by_cases moved : next.server.boot.included = s.server.boot.included
    · exact current.known.imp (fun was => owed (Or.inl was)) fun known => known.trans moved.symm
    · exact Or.inl (owed (Or.inr moved))
  · rw [lists, onDisk, dir, reads]
    exact current.saved
  · rw [lists, reads]
    exact current.newest

/-! ## Reads and writes of the list -/

/-- Replacing a task takes the list it holds away and adds that of the new one. -/
private theorem mem_lists_update {id : Nat} {old : Tail} (held : s.tails.get? id = some old)
    (new : Tail) (list : Nat × List String) :
    list ∈ (s.tails.update id new).all.filterMap tailList ∨ tailList old = some list ↔
      list ∈ s.tails.all.filterMap tailList ∨ tailList new = some list := by
  have moved := s.tails.get?_update held new
  have here := List.mem_of_getElem? held
  simp only [List.mem_filterMap]
  constructor
  · rintro (⟨tail, member, holds⟩ | holds)
    · obtain ⟨j, found⟩ := List.mem_iff_getElem?.mp member
      rw [← Tasks.get?, moved] at found
      split at found
      · cases found
        exact Or.inr holds
      · exact Or.inl ⟨tail, List.mem_of_getElem? found, holds⟩
    · exact Or.inl ⟨old, here, holds⟩
  · rintro (⟨tail, member, holds⟩ | holds)
    · rcases (mem_update held member).2 with rfl | kept
      · exact Or.inr holds
      · exact Or.inl ⟨tail, kept, holds⟩
    · exact Or.inl ⟨new, (mem_update held here).1, holds⟩

/-- A task that reads no list does its part. -/
private theorem current_silent {latest : List String} (current : Current s latest)
    (same : ∀ list, list ∈ lists next ↔ list ∈ lists s) (reads : next.reads = s.reads)
    (dir : next.dir = s.dir) (server : next.server = s.server)
    (tails : ∀ tail ∈ s.tails.all, readsList tail → tail ∈ next.tails.all) : Current next latest := by
  refine ⟨dir ▸ current.savable, ?_, ?_, ?_⟩
  · rw [server]
    refine current.known.imp_left fun owed => ?_
    rcases owed with ⟨tail, member, owes⟩ | ⟨task, member, later⟩
    · exact Or.inl ⟨tail, tails tail member owes, owes⟩
    · exact Or.inr ⟨task, server ▸ member, later⟩
  · rw [reads, onDisk, dir, same]
    exact current.saved
  · intro list member
    rw [reads]
    exact current.newest list ((same list).mp member)

/-- A task reads the list. -/
private theorem current_read {latest order : List String} (current : Current s latest)
    (listed : order.toFinset = s.server.boot.included)
    (read : ∀ list, list ∈ lists next ↔ list ∈ lists s ∨ list = (s.reads, order))
    (reads : next.reads = s.reads + 1) (dir : next.dir = s.dir)
    (server : next.server = s.server) : Current next order := by
  refine ⟨dir ▸ current.savable, Or.inr (server ▸ listed), Or.inl ⟨by omega, ?_⟩, fun list member => ?_⟩
  · rw [reads, Nat.add_sub_cancel, read]
    exact Or.inr rfl
  · rcases (read list).mp member with old | rfl
    · have older := (current.newest list old).1
      exact ⟨by omega, fun newest => by omega⟩
    · exact ⟨by omega, fun _ => rfl⟩

private theorem current_tail {latest order : List String} {id : Nat} (current : Current s latest)
    (ran : s.tailStep wall id order = some next) : ∃ latest, Current next latest := by
  have kept {tail new : Tail} (held : s.tails.get? id = some tail) (silent : readsList tail = false) :
      ∀ other ∈ s.tails.all, readsList other → other ∈ (s.tails.update id new).all := by
    intro other member reads
    rcases (mem_update held member).2 with rfl | stays
    · rw [silent] at reads
      cases reads
    · exact stays
  cases tail_cases ran with
  | registry held =>
    refine ⟨latest, current_silent current (fun list => ?_) rfl rfl rfl (kept held rfl)⟩
    have moved := mem_lists_update held .finished list
    simp only [tailList, reduceCtorEq, or_false] at moved
    simp [lists, spawnJob, opList, moved]
  | included held listed =>
    refine ⟨order, current_read current listed (fun list => ?_) rfl rfl rfl⟩
    have moved := mem_lists_update held .finished list
    simp only [tailList, reduceCtorEq, or_false] at moved
    rw [lists, List.mem_append, moved, lists, List.mem_append]
    simp only [spawnJob, List.flatten_append, List.flatten_singleton, List.filterMap_append,
      List.filterMap_cons, List.filterMap_nil, opList, List.mem_append, List.mem_singleton]
    tauto
  | @exclusion device held listed =>
    refine ⟨order, current_read current listed (fun list => ?_) rfl rfl rfl⟩
    have moved := mem_lists_update held (.excluded device s.reads order) list
    simp only [tailList, reduceCtorEq, or_false, Option.some.injEq] at moved
    rw [lists, List.mem_append, moved, lists, List.mem_append, or_assoc, eq_comm (b := list)]
  | excluded held =>
    refine ⟨latest, current_silent current (fun list => ?_) rfl rfl rfl (kept held rfl)⟩
    have moved := mem_lists_update held .finished list
    simp only [tailList, reduceCtorEq, or_false, Option.some.injEq, eq_comm (b := list)] at moved
    rw [lists, List.mem_append, lists, List.mem_append, ← moved]
    simp only [spawnJob, List.flatten_append, List.flatten_singleton, List.filterMap_append,
      List.filterMap_cons, List.filterMap_nil, opList, List.mem_append, List.mem_singleton]
    tauto

/-- What is saved is what is loaded again. -/
theorem loadIncluded_saveIncluded (endpoints : List String) :
    loadIncluded (some (saveIncluded endpoints)) = endpoints := by
  have strings : (endpoints.map Json.str).mapM Json.asStr = some endpoints := by
    induction endpoints with
    | nil => rfl
    | cons endpoint rest ih =>
      rw [List.map_cons, List.mapM_cons, ih]
      rfl
  simp [loadIncluded, saveIncluded, Json.asArray, strings]

private theorem current_run {latest : List String} {index : Nat} (current : Current s latest)
    (allowed : NewestLast s (.run index)) (ran : s.runStep sessionTo index = some next) :
    Current next latest := by
  obtain ⟨op, rest, front, back, found, before, after, -, moved⟩ := run_move ran
  have server : next.server = s.server := by rw [moved]
  have reads : next.reads = s.reads := by rw [moved]
  have tails : next.tails = s.tails := by rw [moved]
  have dir : next.dir = s.dir.apply sessionTo op := by rw [moved]
  have fewer (list : Nat × List String) :
      list ∈ lists s ↔ list ∈ lists next ∨ opList op = some list := by
    simp only [lists, before, after, tails, List.filterMap_append, List.mem_append,
      List.filterMap_cons]
    cases opList op with
    | none => simp
    | some here =>
      simp only [List.mem_cons, Option.some.injEq, eq_comm (a := list)]
      tauto
  have known : Owed next ∨ latest.toFinset = next.server.boot.included := by
    rw [Owed, tails, server]
    exact current.known
  have allowed : s.dir.target op = some includedFile →
      (opList op).any fun list => list.1 + 1 = s.reads ∨ s.reads - 1 ∈ (lists s).map Prod.fst := by
    simp only [NewestLast, newestLast, nextOp_of_found found, Option.all_some, decide_eq_true_eq] at allowed
    exact allowed
  have newest : ∀ list ∈ lists next,
      list.1 < next.reads ∧ (list.1 + 1 = next.reads → list.2 = latest) := by
    intro list member
    rw [reads]
    exact current.newest list ((fewer list).mpr (Or.inl member))
  refine ⟨current.savable.follows (dir ▸ follows_apply), known, ?_, newest⟩
  rw [reads]
  cases holds : opList op with
  | none =>
    have disk : onDisk next = onDisk s := by
      rw [onDisk, dir, included_of_content (content_apply_other loadable_includedFile ?_)]
      · rfl
      · intro here
        simpa [holds] using allowed here
    simp only [holds, reduceCtorEq, or_false] at fewer
    rw [disk, ← fewer]
    exact current.saved
  | some list =>
    have written : onDisk next = list.2.toFinset := by
      rw [onDisk, dir]
      cases op with
      | saveIncluded read endpoints =>
        cases holds
        rw [StateDir.apply, included_writeIncluded current.savable]
        exact congrArg List.toFinset (loadIncluded_saveIncluded endpoints)
      | _ => cases holds
    have member : list ∈ lists s := (fewer list).mpr (Or.inr holds)
    obtain ⟨older, same⟩ := current.newest list member
    by_cases last : list.1 + 1 = s.reads
    · exact Or.inr (by rw [written, same last])
    · -- an older list is written, so the newest one is still to come
      have goes : s.dir.target op = some includedFile := by
        cases op with
        | saveIncluded => rfl
        | _ => cases holds
      have turn := allowed goes
      rw [holds, Option.any_some, decide_eq_true_eq] at turn
      obtain ⟨kept, inside, number⟩ := List.mem_map.mp (turn.resolve_left last)
      have recent : kept.2 = latest := (current.newest kept inside).2 (by omega)
      refine Or.inl ⟨by omega, ?_⟩
      rcases (fewer kept).mp inside with stays | gone
      · rw [← number, ← recent]
        exact stays
      · rw [holds] at gone
        cases gone
        omega

/-! ## Runs -/

private theorem current_started {clock : Instant} {dir : StateDir} (seed : UInt32)
    (serverUri : Option String) (savable : ListSavable dir) (kept : ¬ OrphanAt (wall + clock / 1000000000)
      (loadIncluded dir.included.document) dir includedFile) :
    Current (started sessionTo wall seed serverUri clock dir)
      (loadIncluded dir.included.document) := by
  refine ⟨savable.follows follows_startUp, Or.inr ?_, Or.inr ?_, fun list member => ?_⟩
  · ext endpoint
    rw [List.mem_toFinset]
    simp [started, Server.initial, IncludedSet.mem_loadIncluded, BootstrapRegistry.new]
  · rw [onDisk, started, startUp_included kept]
  · simp [lists, started] at member

/-- **The file has the included set once every list is written**, in every run
that writes a list only while the newest one is still unwritten, or writes the
newest one. -/
theorem lists_saved (reached : (machine env sessionTo wall).Reaches NewestLast s) : ListSaved s := by
  have invariant : ∃ latest, Current s latest := by
    refine reached.invariant (fun s => ∃ latest, Current s latest) ?_ ?_
    · rintro s ⟨seed, serverUri, clock, dir, savable, kept, rfl⟩
      exact ⟨_, current_started seed serverUri savable kept⟩
    · rintro s action next - ⟨latest, current⟩ allowed ran
      change s.step env sessionTo wall action = some next at ran
      cases action with
      | server action => exact ⟨latest, current_server current ran⟩
      | tail id order => exact current_tail current ran
      | run index => exact ⟨latest, current_run current allowed ran⟩
  obtain ⟨latest, current⟩ := invariant
  intro settled written
  rcases current.saved with ⟨-, member⟩ | saved
  · rw [written] at member
    cases member
  · rw [saved]
    exact current.known.resolve_left settled

/-! ## Two exclusions -/

/-- The server as it starts with a mower and a pump on the list. -/
def listed : Storage :=
  started "" 1700000000 1 none 0 (installedDir.writeIncluded (saveIncluded ["mower", "pump"]))

private theorem start_listed : (machine Peer.env "" 1700000000).start listed :=
  ⟨1, none, 0, _, ⟨by decide +kernel, by decide +kernel⟩, by decide +kernel, rfl⟩

/-- One exclusion of a device that is not registered, up to the spawn of its
saves; the list it reads is what is left. -/
def excludeOne (id : Nat) (device : String) (left : List String) : List StorageAction :=
  [.server (.excludeDevice device), .server (.exclusion id), .server (.exclusion id),
    .server (.exclusion id), .server (.exclusion id), .tail id left, .tail id left]

/-- The mower is excluded, then the pump. -/
def excludeBoth : List StorageAction := excludeOne 0 "mower" ["pump"] ++ excludeOne 1 "pump" []

/-- The saves in the order they were spawned. -/
def inOrder : List StorageAction := excludeBoth ++ List.replicate 6 (.run 0)

/-- The saves of the second exclusion first. -/
def overtaken : List StorageAction :=
  excludeBoth ++ List.replicate 3 (.run 1) ++ List.replicate 3 (.run 0)

/-- All is read and written. -/
def settled (s : Storage) : Bool :=
  s.jobs.isEmpty && s.tails.all.all (fun tail => !readsList tail && (tailList tail).isNone) &&
    s.server.exclusions.all.all fun task => !readsLater task.pc

theorem not_owed_of_settled (quiet : settled s) : ¬ Owed s ∧ lists s = [] := by
  simp only [settled, Bool.and_eq_true, List.isEmpty_iff, List.all_eq_true] at quiet
  obtain ⟨⟨jobs, tails⟩, exclusions⟩ := quiet
  constructor
  · rintro (⟨tail, member, reads⟩ | ⟨task, member, later⟩)
    · simpa [reads] using (tails tail member).1
    · simpa [later] using exclusions task member
  · rw [lists, jobs]
    simp only [List.flatten_nil, List.filterMap_nil, List.nil_append, List.filterMap_eq_nil_iff]
    exact fun tail member => Option.isNone_iff_eq_none.mp (tails tail member).2

/-- The run in order, and what it leaves. -/
theorem inOrder_saved : ∃ last,
    (machine Peer.env "" 1700000000).exec NewestLast listed inOrder = some last ∧
    last.server.boot.included = ∅ ∧ ListSaved last ∧ onDisk last = ∅ := by
  obtain ⟨last, ran, reached, ended⟩ := Machine.exec_reaches (machine Peer.env "" 1700000000)
    NewestLast listed inOrder (fun s => settled s && decide (s.server.boot.included = ∅))
    start_listed (by decide +kernel)
  obtain ⟨quiet, none_⟩ := Bool.and_eq_true_iff.mp ended
  have saved := lists_saved reached
  obtain ⟨idle, written⟩ := not_owed_of_settled quiet
  have empty := of_decide_eq_true none_
  exact ⟨last, ran, empty, saved, (saved idle written).trans empty⟩

/-- The first exclusion's list is written over that of the second, and the pump
is on disk though nothing is included. -/
theorem overtaken_stale : ∃ last, (machine Peer.env "" 1700000000).Reaches Machine.always last ∧
    ¬ ListSaved last ∧ last.server.boot.included = ∅ ∧ onDisk last = {"pump"} := by
  obtain ⟨last, ran, reached, ended⟩ := Machine.exec_reaches (machine Peer.env "" 1700000000)
    Machine.always listed overtaken
    (fun s => settled s && decide (s.server.boot.included = ∅ ∧ onDisk s = {"pump"}))
    start_listed (by decide +kernel)
  obtain ⟨quiet, stale⟩ := Bool.and_eq_true_iff.mp ended
  obtain ⟨idle, written⟩ := not_owed_of_settled quiet
  obtain ⟨empty, disk⟩ := of_decide_eq_true stale
  refine ⟨last, reached, fun saved => ?_, empty, disk⟩
  have same := saved idle written
  rw [disk, empty] at same
  exact absurd same (by decide)

end Lwm2mServer.SavedInclusions
