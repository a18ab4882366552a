import Lwm2mServer.Library.Files
import Lwm2mServer.Library.Machine
import Lwm2mServer.Persistence

/-! `write_atomic` as its system calls: the temporary file is opened and
truncated, written in pieces of any size, and renamed onto its target. Saves
run side by side on a thread pool, and all saves of one target use the same
temporary file. What a target holds is a whole document as long as no save
opens the temporary file while another one of the same target has it. -/
namespace Lwm2mServer.AtomicWrites
open Library

/-- A saved file, or `path.with_extension("tmp")` of it. -/
inductive FileName where
  | file (target : Target)
  | temp (target : Target)
  deriving DecidableEq

/-- Where a call of `write_atomic` is. -/
inductive SavePc where
  | opening
  | writing (inode offset : Nat)
  | committing
  /-- Returned, or given up after an error. -/
  | finished
  deriving DecidableEq

structure SaveTask where
  save : Save
  pc : SavePc

/-- The calls that have opened the temporary file and not yet renamed it. -/
def SaveTask.active (task : SaveTask) : Bool :=
  match task.pc with
  | .writing _ _ | .committing => true
  | _ => false

/-- The file system, the calls of the running process, and all documents that
were to be saved since the files had the content `before`. -/
structure Disk where
  files : Files FileName
  saves : Tasks SaveTask := {}
  before : Files FileName
  asked : List Save := []

inductive DiskAction where
  /-- A call begins. -/
  | ask (save : Save)
  /-- A call makes its next system call; a write takes up to `bytes` of what is
  left. -/
  | step (id : Nat) (bytes : Nat)
  /-- A system call fails, and the call returns. -/
  | fail (id : Nat)
  /-- The process dies; the files stay as they are. -/
  | crash

section
-- `serde_json::to_vec_pretty`, and the server's own address in `wakaama.json`
variable (toVecPretty : Json → Bytes) (sessionTo : String)

/-- The bytes a call writes. -/
def contentOf (save : Save) : Bytes := toVecPretty (save.document sessionTo)

/-- One system call of `write_atomic`. -/
def saveStep (d : Disk) (id bytes : Nat) : Option Disk := do
  let task ← d.saves.get? id
  let goto pc := d.saves.update id { task with pc }
  let data := contentOf toVecPretty sessionTo task.save
  match task.pc with
  | .opening =>
    let (inode, files) := d.files.create (.temp task.save.target)
    return { d with files, saves := goto (.writing inode 0) }
  | .writing inode offset =>
    if offset = data.length then return { d with saves := goto .committing }
    else
      let chunk := (data.drop offset).take bytes
      return { d with
        files := d.files.writeAt inode offset chunk
        saves := goto (.writing inode (offset + chunk.length)) }
  | .committing =>
    match d.files.rename (.temp task.save.target) (.file task.save.target) with
    | some files => return { d with files, saves := goto .finished }
    | none => return { d with saves := goto .finished }
  | .finished => none

def diskStep (d : Disk) : DiskAction → Option Disk
  | .ask save => some { d with saves := d.saves.spawn ⟨save, .opening⟩, asked := save :: d.asked }
  | .step id bytes => saveStep toVecPretty sessionTo d id bytes
  | .fail id => do
    let task ← d.saves.get? id
    return { d with saves := d.saves.update id { task with pc := .finished } }
  | .crash => some { d with saves := {} }

/-- Any files to begin with, a left-over temporary file included. -/
def disk : Machine Disk DiskAction where
  start d := d.files = d.before ∧ d.files.Unshared ∧ d.saves = {} ∧ d.asked = []
  step := diskStep toVecPretty sessionTo

/-- A target is unchanged or holds a whole document that was to be saved
there. -/
def Intact (d : Disk) (target : Target) : Prop :=
  d.files.read (.file target) = d.before.read (.file target) ∨
    ∃ save ∈ d.asked, save.target = target ∧
      d.files.read (.file target) = some (contentOf toVecPretty sessionTo save)

end

/-- A call opens the temporary file only while no other call of its target has
it. -/
def Alone (d : Disk) : DiskAction → Prop
  | .step id _ => ∀ task ∈ d.saves.get? id, task.pc = .opening →
    ∀ other ∈ d.saves.all, other.active → other.save.target ≠ task.save.target
  | _ => True

instance (d : Disk) : ∀ action, Decidable (Alone d action)
  | .step id _ =>
    have : DecidablePred fun task : SaveTask => task.pc = .opening →
        ∀ other ∈ d.saves.all, other.active → other.save.target ≠ task.save.target :=
      fun _ => inferInstance
    Option.decidableForallMem (d.saves.get? id)
  | .ask _ | .fail _ | .crash => isTrue trivial

variable {toVecPretty : Json → Bytes} {sessionTo : String} {d next : Disk} {action : DiskAction}

/-- The one call that has a temporary file has written it up to its offset. -/
structure Writing (toVecPretty : Json → Bytes) (sessionTo : String) (d : Disk) : Prop where
  unshared : d.files.Unshared
  asked : ∀ id task, d.saves.get? id = some task → task.save ∈ d.asked
  one : ∀ i first j second, d.saves.get? i = some first → d.saves.get? j = some second →
    first.active → second.active → first.save.target = second.save.target → i = j
  written : ∀ id task inode offset, d.saves.get? id = some task → task.pc = .writing inode offset →
    d.files.dir.lookup (.temp task.save.target) = some inode ∧
      offset ≤ (contentOf toVecPretty sessionTo task.save).length ∧
      d.files.inodes inode = (contentOf toVecPretty sessionTo task.save).take offset
  whole : ∀ id task, d.saves.get? id = some task → task.pc = .committing →
    d.files.read (.temp task.save.target) = some (contentOf toVecPretty sessionTo task.save)
  intact : ∀ target, Intact toVecPretty sessionTo d target

/-- A file untouched between two states of the file system. -/
def Untouched (fs fs' : Files FileName) (name : FileName) : Prop :=
  fs'.dir.lookup name = fs.dir.lookup name ∧
    ∀ inode, fs.dir.lookup name = some inode → fs'.inodes inode = fs.inodes inode

private theorem read_untouched {fs fs' : Files FileName} {name : FileName}
    (same : Untouched fs fs' name) : fs'.read name = fs.read name := by
  rw [Files.read, Files.read, same.1]
  cases held : fs.dir.lookup name with
  | none => rfl
  | some inode => exact congrArg some (same.2 inode held)

/-- The call that has its target to itself moves on. -/
private theorem writing_goto {id : Nat} {task : SaveTask} {pc : SavePc} {files : Files FileName}
    (inv : Writing toVecPretty sessionTo d) (held : d.saves.get? id = some task)
    (alone : ∀ j other, j ≠ id → d.saves.get? j = some other → other.active →
      other.save.target ≠ task.save.target)
    (unshared : files.Unshared)
    (elsewhere : ∀ name, name ≠ .temp task.save.target → name ≠ .file task.save.target →
      Untouched d.files files name)
    (written : ∀ inode offset, pc = .writing inode offset →
      files.dir.lookup (.temp task.save.target) = some inode ∧
        offset ≤ (contentOf toVecPretty sessionTo task.save).length ∧
        files.inodes inode = (contentOf toVecPretty sessionTo task.save).take offset)
    (whole : pc = .committing → files.read (.temp task.save.target) =
      some (contentOf toVecPretty sessionTo task.save))
    (intact : Intact toVecPretty sessionTo { d with files } task.save.target) :
    Writing toVecPretty sessionTo
      { d with files, saves := d.saves.update id { task with pc } } := by
  have tasks (j : Nat) : (d.saves.update id { task with pc }).get? j =
      if j = id then some { task with pc } else d.saves.get? j :=
    Tasks.get?_update d.saves held _ j
  -- the temporary file of another active call is another file
  have other {j : Nat} {t : SaveTask} (apart : j ≠ id) (found : d.saves.get? j = some t)
      (busy : t.active) : Untouched d.files files (.temp t.save.target) :=
    elsewhere _ (fun same => alone j t apart found busy (FileName.temp.inj same)) (by simp)
  constructor
  · exact unshared
  · intro j t found
    simp only [tasks] at found
    split at found
    · cases found
      exact inv.asked id task held
    · exact inv.asked j t found
  · intro i first j second foundFirst foundSecond busy busy' same
    simp only [tasks] at foundFirst foundSecond
    split at foundFirst <;> split at foundSecond
    · rename_i here here'
      exact here.trans here'.symm
    · rename_i here apart
      cases foundFirst
      exact absurd same.symm (alone j second apart foundSecond busy')
    · rename_i apart here
      cases foundSecond
      exact absurd same (alone i first apart foundFirst busy)
    · exact inv.one i first j second foundFirst foundSecond busy busy' same
  · intro j t inode offset found at_
    simp only [tasks] at found
    split at found
    · cases found
      exact written inode offset at_
    · rename_i apart
      obtain ⟨name, within, content⟩ := inv.written j t inode offset found at_
      have same := other apart found (by simp [SaveTask.active, at_])
      exact ⟨same.1.trans name, within, (same.2 inode name).trans content⟩
  · intro j t found at_
    simp only [tasks] at found
    split at found
    · cases found
      exact whole at_
    · rename_i apart
      have same := other apart found (by simp [SaveTask.active, at_])
      exact (read_untouched same).trans (inv.whole j t found at_)
  · intro target
    by_cases here : target = task.save.target
    · exact here ▸ intact
    · have same := read_untouched (elsewhere (.file target) (by simp) fun equal =>
        here (FileName.file.inj equal))
      have kept := inv.intact target
      rw [Intact, ← same] at kept
      exact kept

/-- A call that ends leaves the files alone. -/
private theorem writing_stop {id : Nat} {task : SaveTask} (inv : Writing toVecPretty sessionTo d)
    (held : d.saves.get? id = some task) :
    Writing toVecPretty sessionTo
      { d with saves := d.saves.update id { task with pc := .finished } } := by
  have running {j : Nat} {t : SaveTask}
      (found : (d.saves.update id { task with pc := .finished }).get? j = some t) (goes : t.pc ≠ .finished) :
      d.saves.get? j = some t := by
    rw [Tasks.get?_update d.saves held] at found
    split at found
    · cases found
      exact absurd rfl goes
    · exact found
  have busy {t : SaveTask} (active : t.active) : t.pc ≠ .finished := by
    intro ended
    simp [SaveTask.active, ended] at active
  refine ⟨inv.unshared, ?_, ?_, ?_, ?_, inv.intact⟩
  · intro j t found
    rw [Tasks.get?_update d.saves held] at found
    split at found
    · cases found
      exact inv.asked id task held
    · exact inv.asked j t found
  · intro i first j second foundFirst foundSecond active active'
    exact inv.one i first j second (running foundFirst (busy active))
      (running foundSecond (busy active')) active active'
  · intro j t inode offset found at_
    exact inv.written j t inode offset (running found (by simp [at_])) at_
  · intro j t found at_
    exact inv.whole j t (running found (by simp [at_])) at_

/-- One system call of a call that meets the condition. -/
private theorem writing_saveStep {id bytes : Nat} (inv : Writing toVecPretty sessionTo d)
    (allowed : Alone d (.step id bytes))
    (ran : saveStep toVecPretty sessionTo d id bytes = some next) :
    Writing toVecPretty sessionTo next := by
  obtain ⟨task, held, ran⟩ := Option.bind_eq_some_iff.mp ran
  have mine (busy : task.active) (j : Nat) (other : SaveTask) (apart : j ≠ id)
      (found : d.saves.get? j = some other) (active : other.active) :
      other.save.target ≠ task.save.target :=
    fun same => apart (inv.one j other id task found held active busy same)
  cases pc : task.pc with
  | opening =>
    simp only [pc] at ran
    cases ran
    have opened := @Files.create_opened _ _ d.files (.temp task.save.target)
    have kept (name : FileName) (apart : name ≠ .temp task.save.target) :
        Untouched d.files (d.files.create (.temp task.save.target)).2 name :=
      Files.create_other inv.unshared apart
    refine writing_goto inv held (fun j other _ found active => ?_)
      (Files.create_unshared inv.unshared _) (fun name apart _ => kept name apart) ?_ (by simp) ?_
    · exact allowed task held pc other (List.mem_of_getElem? found) active
    · rintro inode offset ⟨rfl, rfl⟩
      exact ⟨opened.1, Nat.zero_le _, opened.2⟩
    · have intact := inv.intact task.save.target
      rw [Intact, ← read_untouched (kept (.file task.save.target) (by simp))] at intact
      exact intact
  | writing inode offset =>
    obtain ⟨name, within, content⟩ := inv.written id task inode offset held pc
    have alone := mine (by simp [SaveTask.active, pc])
    simp only [pc] at ran
    split at ran
    · rename_i finished
      cases ran
      refine writing_goto inv held alone inv.unshared (fun _ _ _ => ⟨rfl, fun _ _ => rfl⟩) (by simp)
        (fun _ => ?_) (inv.intact task.save.target)
      rw [Files.read, name, Option.map_some, content, finished, List.take_length]
    · cases ran
      have kept (other : FileName) (apart : other ≠ .temp task.save.target) : Untouched d.files
          (d.files.writeAt inode offset
            (((contentOf toVecPretty sessionTo task.save).drop offset).take bytes)) other :=
        ⟨rfl, fun there found => Files.writeAt_other inv.unshared name apart _ _ found⟩
      refine writing_goto inv held alone ⟨inv.unshared.names, inv.unshared.used⟩
        (fun other apart _ => kept other apart) ?_ (by simp) ?_
      · rintro inode' offset' ⟨rfl, rfl⟩
        refine ⟨name, ?_, ?_⟩
        · rw [List.length_take, List.length_drop]
          omega
        · rw [Files.writeAt_inode, content, Files.overwrite_take _ within, List.length_take,
            List.length_drop]
          by_cases most : bytes ≤ (contentOf toVecPretty sessionTo task.save).length - offset
          · rw [Nat.min_eq_left most]
          · rw [List.take_of_length_le (by omega), List.take_of_length_le (by omega)]
      · have intact := inv.intact task.save.target
        rw [Intact, ← read_untouched (kept (.file task.save.target) (by simp))] at intact
        exact intact
  | committing =>
    have alone := mine (by simp [SaveTask.active, pc])
    have complete := inv.whole id task held pc
    simp only [pc] at ran
    split at ran
    · rename_i files renamed
      cases ran
      obtain ⟨inode, name, contents, _, dir⟩ := Files.rename_dir renamed
      refine writing_goto inv held alone (Files.rename_unshared inv.unshared renamed) ?_ (by simp)
        (by simp) (Or.inr ⟨task.save, inv.asked id task held, rfl, ?_⟩)
      · intro other notTemp notFile
        exact ⟨by rw [dir, if_neg notFile, if_neg notTemp], fun _ _ => by rw [contents]⟩
      · rw [Files.read, name, Option.map_some] at complete
        rw [Files.read, dir, if_pos rfl, Option.map_some, contents]
        exact complete
    · cases ran
      exact writing_stop inv held
  | finished =>
    simp only [pc] at ran
    cases ran

theorem writing_step (inv : Writing toVecPretty sessionTo d) (allowed : Alone d action)
    (ran : diskStep toVecPretty sessionTo d action = some next) :
    Writing toVecPretty sessionTo next := by
  cases action with
  | ask save =>
    cases ran
    -- a call that has only begun has no temporary file
    have old {j : Nat} {t : SaveTask} (found : (d.saves.spawn ⟨save, .opening⟩).get? j = some t)
        (begun : t.pc ≠ .opening) : d.saves.get? j = some t := by
      rw [Tasks.get?_spawn] at found
      split at found
      · cases found
        exact absurd rfl begun
      · exact found
    have busy {t : SaveTask} (active : t.active) : t.pc ≠ .opening := by
      intro began
      simp [SaveTask.active, began] at active
    refine ⟨inv.unshared, ?_, ?_, ?_, ?_, ?_⟩
    · intro j t found
      rw [Tasks.get?_spawn] at found
      split at found
      · cases found
        exact List.mem_cons_self
      · exact List.mem_cons_of_mem _ (inv.asked j t found)
    · intro i first j second foundFirst foundSecond active active'
      exact inv.one i first j second (old foundFirst (busy active)) (old foundSecond (busy active'))
        active active'
    · intro j t inode offset found at_
      exact inv.written j t inode offset (old found (by simp [at_])) at_
    · intro j t found at_
      exact inv.whole j t (old found (by simp [at_])) at_
    · intro target
      refine (inv.intact target).imp_right ?_
      rintro ⟨earlier, member, same, content⟩
      exact ⟨earlier, List.mem_cons_of_mem _ member, same, content⟩
  | step id bytes => exact writing_saveStep inv allowed ran
  | fail id =>
    obtain ⟨task, held, ran⟩ := Option.bind_eq_some_iff.mp ran
    cases ran
    exact writing_stop inv held
  | crash =>
    cases ran
    refine ⟨inv.unshared, ?_, ?_, ?_, ?_, inv.intact⟩
    all_goals simp

/-- **No target is ever torn in a run in which saves of one target do not
overlap**, wherever it crashes. -/
theorem reached_intact (reached : (disk toVecPretty sessionTo).Reaches Alone d) (target : Target) :
    Intact toVecPretty sessionTo d target := by
  have inv : Writing toVecPretty sessionTo d := by
    refine reached.invariant (Writing toVecPretty sessionTo) ?_ ?_
    · rintro d ⟨unchanged, unshared, none, nothing⟩
      refine ⟨unshared, ?_, ?_, ?_, ?_, fun target => Or.inl (by rw [unchanged])⟩
      all_goals simp [none]
    · intro d action next _ inv allowed ran
      exact writing_step inv allowed ran
  exact inv.intact target

/-! ## Two saves of the included list -/

def asciiBytes (text : String) : Bytes := text.toList.map fun c => UInt8.ofNat c.toNat

/-- What `to_vec_pretty` makes of a list of plain strings. -/
def prettyList : Json → Bytes
  | .arr [] => asciiBytes "[]"
  | .arr items =>
    let lines := items.map fun item => "  \"" ++ (item.asStr.getD "") ++ "\""
    asciiBytes ("[\n" ++ String.intercalate ",\n" lines ++ "\n]")
  | _ => []

/-- No files yet. -/
def emptyDisk : Disk := ⟨⟨∅, fun _ => [], 0⟩, {}, ⟨∅, fun _ => [], 0⟩, []⟩

private theorem start_emptyDisk : (disk prettyList "").start emptyDisk := by
  refine ⟨rfl, ⟨?_, ?_⟩, rfl, rfl⟩
  · intro a b inode found
    cases found
  · intro a inode found
    cases found

/-- One save at a time, the first one in two writes, the second one cut off by
a crash. -/
def orderlySaves : List DiskAction :=
  [.ask (.included ["mower"]), .step 0 0, .step 0 5, .step 0 100, .step 0 0, .step 0 0,
    .ask (.included []), .step 1 0, .step 1 1, .crash]

theorem orderly_intact : ∃ d, (disk prettyList "").Reaches Alone d ∧
    d.files.read (.file .included) = some (asciiBytes "[\n  \"mower\"\n]") ∧
    Intact prettyList "" d .included := by
  obtain ⟨d, _, reached, there⟩ := Machine.exec_reaches (disk prettyList "") Alone emptyDisk
    orderlySaves (fun d => d.files.read (.file .included) = some (asciiBytes "[\n  \"mower\"\n]"))
    start_emptyDisk (by decide)
  exact ⟨d, reached, of_decide_eq_true there, reached_intact reached .included⟩

/-- The second save opens the temporary file after the first one has written
it, and the first one renames the file the second one has just truncated. -/
def overlappingSaves : List DiskAction :=
  [.ask (.included ["mower"]), .ask (.included ["mower", "pump"]), .step 0 0, .step 0 100, .step 0 0,
    .step 1 0, .step 0 0]

theorem overlapping_torn : ∃ d, (disk prettyList "").Reaches Machine.always d ∧
    d.files.read (.file .included) = some [] ∧ ¬ Intact prettyList "" d .included := by
  obtain ⟨d, _, reached, there⟩ := Machine.exec_reaches (disk prettyList "") Machine.always emptyDisk
    overlappingSaves (fun d => d.files.read (.file .included) = some [] ∧
      d.before.read (.file .included) = none ∧
      ∀ save ∈ d.asked, contentOf prettyList "" save ≠ []) start_emptyDisk (by decide)
  obtain ⟨empty, absent, filled⟩ := of_decide_eq_true there
  refine ⟨d, reached, empty, ?_⟩
  rintro (unchanged | ⟨save, member, _, content⟩)
  · rw [empty, absent] at unchanged
    cases unchanged
  · rw [empty] at content
    exact filled save member (Option.some.inj content).symm

end Lwm2mServer.AtomicWrites
