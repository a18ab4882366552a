import Lwm2mServer.StateFiles

/-! The state directory of the gateway: the registry, the included list and the
state files, as `PersistenceStore` saves, loads and deletes them. A save or a
deletion changes one file that is read again, the one its path leads to. -/
namespace Lwm2mServer.StateDirectory
open Library FileSystem StateFiles

/-- `/var/lib/lwm2mserver`. -/
def storeDir : List String := ["lwm2mserver", "lib", "var"]

def registryFile : List String := "wakaama.json" :: storeDir

def includedFile : List String := "included_devices.json" :: storeDir

/-- A file: missing, there but not readable as JSON, or a document. -/
inductive Stored where
  | missing
  | garbled
  | json (doc : Json)

def Stored.document : Stored → Option Json
  | .json doc => some doc
  | _ => none

/-- The files of the gateway, each with the JSON it can be read as, if any. The
state directory is there, and nothing is in the way of `devices/` and of the
registry. -/
structure StateDir where
  files : FileSystem (Option Json)
  there : files.isDir storeDir = true
  devices : files.lookup (devicesDir storeDir) = none ∨
    files.lookup (devicesDir storeDir) = some .dir
  saved : ∀ name ∈ ["wakaama.json", "wakaama.tmp"], files.isDir (name :: storeDir) = false

/-- The state directory is there. -/
def directories : List (List String × Entry (Option Json)) :=
  [(["var"], .dir), (["lib", "var"], .dir), (storeDir, .dir), (devicesDir storeDir, .dir)]

/-- A state directory without files. -/
def installedDir : StateDir where
  files := .ofList directories
  there := rfl
  devices := Or.inr rfl
  saved := by decide

/-- Saves and deletions make no directory but `devices/`, and take none out. -/
structure Follows (fs after : FileSystem (Option Json)) : Prop where
  dirs : ∀ place, place ≠ devicesDir storeDir → after.isDir place = fs.isDir place
  devices : after.lookup (devicesDir storeDir) = fs.lookup (devicesDir storeDir) ∨
    after.lookup (devicesDir storeDir) = some .dir

theorem Follows.refl (fs : FileSystem (Option Json)) : Follows fs fs :=
  ⟨fun _ _ => rfl, Or.inl rfl⟩

theorem Follows.trans {fs middle after : FileSystem (Option Json)} (first : Follows fs middle)
    (next : Follows middle after) : Follows fs after where
  dirs place apart := (next.dirs place apart).trans (first.dirs place apart)
  devices := next.devices.elim (fun same => first.devices.imp same.trans same.trans) Or.inr

variable {dir : StateDir} {doc value : Json} {endpoint name tmp : String} {place : List String}

theorem follows_writeAtomic {data : Option Json}
    (beside : tmpPath ⟨storeDir, [name]⟩ = ⟨storeDir, [tmp]⟩)
    (apart : name ≠ "devices" ∧ tmp ≠ "devices") :
    Follows dir.files (writeAtomic dir.files ⟨storeDir, [name]⟩ data) where
  dirs := fun _ _ => congrFun isDir_writeAtomic _
  devices := by
    refine Or.inl (lookup_writeAtomic_other ?_ ?_)
    · rintro ⟨⟩
      exact apart.1 rfl
    · rw [beside]
      rintro ⟨⟩
      exact apart.2 rfl

theorem follows_saveDeviceState :
    Follows dir.files (saveDeviceState some storeDir endpoint value dir.files) := by
  obtain ⟨made, created, devices, kept⟩ := createDir_prepared dir.there dir.devices
  rw [saveDeviceState, created]
  constructor
  · intro place apart
    rw [isDir_writeAtomic, isDir, kept place apart]
    rfl
  · have holds : made.isDir (devicesDir storeDir) = true := isDir_iff.mpr (Or.inr devices)
    rw [← isDir_writeAtomic] at holds
    exact Or.inr ((isDir_iff.mp holds).resolve_left (by decide))

theorem follows_deleteDeviceState :
    Follows dir.files (deleteDeviceState storeDir endpoint dir.files) where
  dirs := fun _ _ => congrFun isDir_deleteDeviceState _
  devices := by
    rw [lookup_deleteDeviceState]
    split
    · rename_i gone
      refine Or.inl (dir.devices.resolve_right fun held => ?_).symm
      rw [isDir_iff.mpr (Or.inr held)] at gone
      exact Bool.noConfusion gone.2
    · exact Or.inl rfl

theorem registry_tmp : tmpPath ⟨storeDir, ["wakaama.json"]⟩ = ⟨storeDir, ["wakaama.tmp"]⟩ := by
  decide

theorem included_tmp :
    tmpPath ⟨storeDir, ["included_devices.json"]⟩ = ⟨storeDir, ["included_devices.tmp"]⟩ := by
  decide

theorem follows_writeRegistry : Follows dir.files
    (writeAtomic dir.files ⟨storeDir, ["wakaama.json"]⟩ (some doc)) :=
  follows_writeAtomic registry_tmp (by decide)

theorem follows_writeIncluded : Follows dir.files
    (writeAtomic dir.files ⟨storeDir, ["included_devices.json"]⟩ (some doc)) :=
  follows_writeAtomic included_tmp (by decide)

namespace StateDir

/-- The directory after an operation on the files. -/
def follow (dir : StateDir) (after : FileSystem (Option Json)) (follows : Follows dir.files after) :
    StateDir where
  files := after
  there := (follows.dirs storeDir (by decide)).trans dir.there
  devices := by
    rcases follows.devices with same | made
    · rw [same]
      exact dir.devices
    · exact Or.inr made
  saved := by
    intro name member
    have apart : name :: storeDir ≠ devicesDir storeDir := by
      rintro ⟨⟩
      exact absurd member (by decide)
    exact (follows.dirs _ apart).trans (dir.saved name member)

/-- `save_registry`, for a document. -/
def writeRegistry (dir : StateDir) (doc : Json) : StateDir :=
  dir.follow (writeAtomic dir.files ⟨storeDir, ["wakaama.json"]⟩ (some doc)) follows_writeRegistry

/-- `save_included`, for a document. -/
def writeIncluded (dir : StateDir) (doc : Json) : StateDir :=
  dir.follow (writeAtomic dir.files ⟨storeDir, ["included_devices.json"]⟩ (some doc))
    follows_writeIncluded

/-- `save_device_state`. -/
def saveDeviceState (dir : StateDir) (endpoint : String) (state : Json) : StateDir :=
  dir.follow (StateFiles.saveDeviceState some storeDir endpoint state dir.files)
    follows_saveDeviceState

/-- `delete_device_state`. -/
def deleteDeviceState (dir : StateDir) (endpoint : String) : StateDir :=
  dir.follow (StateFiles.deleteDeviceState storeDir endpoint dir.files) follows_deleteDeviceState

/-- What a file holds. -/
def content (dir : StateDir) (place : List String) : Option (Option Json) :=
  (dir.files.lookup place).bind Entry.content

def stored (dir : StateDir) (place : List String) : Stored :=
  match dir.content place with
  | none => .missing
  | some none => .garbled
  | some (some doc) => .json doc

def registry (dir : StateDir) : Stored := dir.stored registryFile

def included (dir : StateDir) : Stored := dir.stored includedFile

/-- What the state file of an endpoint holds. -/
def state (dir : StateDir) (endpoint : String) : Option (Option Json) :=
  dir.content (stateFile storeDir endpoint)

/-- `load_all_device_states`. -/
def loadAllDeviceStates (dir : StateDir) : Table String Json :=
  StateFiles.loadAllDeviceStates id storeDir dir.files

/-- Where the path of a state file leads, for a deletion, -/
def deletes (dir : StateDir) (endpoint : String) : Option (List String) :=
  dir.files.resolve (statePath storeDir endpoint)

/-- and for a save, which makes `devices/` first. -/
def savesTo (dir : StateDir) (endpoint : String) : Option (List String) :=
  leads (fun place => place = devicesDir storeDir || dir.files.isDir place)
    (statePath storeDir endpoint)

end StateDir

/-! ## What an operation changes -/

/-- The name of a file that is loaded, other than a temporary one. -/
def Loadable (place : List String) : Prop := ∃ name dir, place = (name ++ ".json") :: dir

theorem loadable_registryFile : Loadable registryFile := ⟨"wakaama", storeDir, by decide⟩

theorem loadable_includedFile : Loadable includedFile := ⟨"included_devices", storeDir, by decide⟩

theorem loadable_stateFile (endpoint : String) : Loadable (stateFile storeDir endpoint) :=
  ⟨endpoint, devicesDir storeDir, rfl⟩

theorem stateFile_ne_registryFile (endpoint : String) :
    stateFile storeDir endpoint ≠ registryFile := by
  intro same
  exact absurd (List.cons.inj same).2 (by decide)

theorem stateFile_ne_includedFile (endpoint : String) :
    stateFile storeDir endpoint ≠ includedFile := by
  intro same
  exact absurd (List.cons.inj same).2 (by decide)

theorem Loadable.ne_devicesDir (loadable : Loadable place) : place ≠ devicesDir storeDir := by
  rintro rfl
  obtain ⟨name, dir, same⟩ := loadable
  have ends := congrArg (fun text => text.toList.getLast?) (List.cons.inj same).1
  rw [String.toList_append, show ".json".toList = ".jso".toList ++ ['n'] by decide, ← List.append_assoc,
    List.getLast?_concat] at ends
  exact absurd ends (by decide)

/-- A temporary file is none of them. -/
theorem Loadable.ne_tmp (loadable : Loadable place) {fs : FileSystem (Option Json)} {path : Location} :
    fs.resolve (tmpPath path) ≠ some place := by
  intro leads
  obtain ⟨name, dir, rfl⟩ := loadable
  obtain ⟨_, _, same, last⟩ := resolve_cons leads
  cases same
  cases ends : path.components.getLast? with
  | none =>
    rw [tmpPath, List.getLast?_eq_none_iff.mp ends] at last
    cases last
  | some old =>
    simp only [tmpPath, ends, Option.map_some, Option.toList_some, List.getLast?_concat,
      Option.some.injEq, withExtension, String.append_assoc] at last
    exact json_ne_tmp name _ last.symm

private theorem content_of_lookup {dir' : StateDir}
    (same : dir'.files.lookup place = dir.files.lookup place) :
    dir'.content place = dir.content place := by
  rw [StateDir.content, same, StateDir.content]

private theorem free_of_plain (valid : validName name = true)
    (plain : dir.files.isDir (name :: storeDir) = false) : dir.files.free (name :: storeDir) = true := by
  rw [FileSystem.free, valid, dir.there, plain]
  rfl

private theorem content_written {data : Option Json}
    (beside : tmpPath ⟨storeDir, [name]⟩ = ⟨storeDir, [tmp]⟩)
    (free : dir.files.free (name :: storeDir) = true)
    (freeTmp : dir.files.free (tmp :: storeDir) = true) (loadable : Loadable place) :
    ((writeAtomic dir.files ⟨storeDir, [name]⟩ data).lookup place).bind Entry.content =
      if place = name :: storeDir then some data else dir.content place := by
  by_cases here : place = name :: storeDir
  · rw [lookup_writeAtomic resolve_single ((congrArg _ beside).trans resolve_single) free freeTmp,
      if_pos here, if_pos here]
    rfl
  · rw [lookup_writeAtomic_other _ loadable.ne_tmp, if_neg here, StateDir.content]
    exact fun leads => here (Option.some.inj leads).symm

theorem content_writeRegistry (loadable : Loadable place) : (dir.writeRegistry doc).content place =
    if place = registryFile then some (some doc) else dir.content place := by
  apply content_written registry_tmp _ _ loadable
  · exact free_of_plain (by decide) (dir.saved _ (by decide))
  · exact free_of_plain (by decide) (dir.saved _ (by decide))

theorem content_writeIncluded_other (loadable : Loadable place) (other : place ≠ includedFile) :
    (dir.writeIncluded doc).content place = dir.content place := by
  apply content_of_lookup
  apply lookup_writeAtomic_other _ loadable.ne_tmp
  rw [resolve_single]
  exact fun leads => other (Option.some.inj leads).symm

/-- Nothing is in the way of the included list. -/
structure ListSavable (dir : StateDir) : Prop where
  file : dir.files.isDir includedFile = false
  tmp : dir.files.isDir ("included_devices.tmp" :: storeDir) = false

theorem ListSavable.follows {after : StateDir} (savable : ListSavable dir)
    (follows : Follows dir.files after.files) : ListSavable after where
  file := (follows.dirs _ (by decide)).trans savable.file
  tmp := (follows.dirs _ (by decide)).trans savable.tmp

theorem content_writeIncluded (savable : ListSavable dir) :
    (dir.writeIncluded doc).content includedFile = some (some doc) := by
  apply (content_written included_tmp _ _ loadable_includedFile).trans (if_pos rfl)
  · exact free_of_plain (by decide) savable.file
  · exact free_of_plain (by decide) savable.tmp

theorem registry_of_content {after : StateDir}
    (same : after.content registryFile = dir.content registryFile) : after.registry = dir.registry := by
  rw [StateDir.registry, StateDir.stored, same]
  rfl

theorem included_of_content {after : StateDir}
    (same : after.content includedFile = dir.content includedFile) : after.included = dir.included := by
  rw [StateDir.included, StateDir.stored, same]
  rfl

theorem registry_writeRegistry : (dir.writeRegistry doc).registry = .json doc := by
  rw [StateDir.registry, StateDir.stored, content_writeRegistry loadable_registryFile, if_pos rfl]

theorem included_writeIncluded (savable : ListSavable dir) :
    (dir.writeIncluded doc).included = .json doc := by
  rw [StateDir.included, StateDir.stored, content_writeIncluded savable]

/-- A deletion takes out what its path leads to. -/
theorem content_deleteDeviceState : (dir.deleteDeviceState endpoint).content place =
    if dir.deletes endpoint = some place then none else dir.content place := by
  rw [StateDir.content]
  change ((StateFiles.deleteDeviceState storeDir endpoint dir.files).lookup place).bind Entry.content = _
  rw [lookup_deleteDeviceState]
  by_cases leads : dir.deletes endpoint = some place
  · rw [if_pos leads]
    split
    · rfl
    · rename_i kept
      have dirs : dir.files.isDir place = true := by
        rw [← Bool.not_eq_false]
        exact fun plain => kept ⟨leads, plain⟩
      obtain ⟨name, parent, rfl, -⟩ := resolve_cons leads
      rw [(isDir_iff.mp dirs).resolve_left nofun]
      rfl
  · rw [if_neg leads, if_neg fun both => leads both.1, StateDir.content]

private theorem isDir_made {made : FileSystem (Option Json)}
    (devices : made.lookup (devicesDir storeDir) = some .dir)
    (kept : ∀ place, place ≠ devicesDir storeDir → made.lookup place = dir.files.lookup place) :
    made.isDir = fun place => place = devicesDir storeDir || dir.files.isDir place := by
  funext place
  by_cases here : place = devicesDir storeDir
  · rw [here, isDir_iff.mpr (Or.inr devices)]
    simp
  · rw [isDir, kept place here, decide_eq_false here, Bool.false_or]
    rfl

/-- A save changes what its path leads to, if anything. -/
theorem content_saveDeviceState_other (loadable : Loadable place)
    (elsewhere : dir.savesTo endpoint ≠ some place) :
    (dir.saveDeviceState endpoint value).content place = dir.content place := by
  obtain ⟨made, created, devices, kept⟩ := createDir_prepared dir.there dir.devices
  apply content_of_lookup
  change (StateFiles.saveDeviceState some storeDir endpoint value dir.files).lookup place = _
  rw [StateFiles.saveDeviceState, created]
  dsimp only
  rw [lookup_writeAtomic_other _ loadable.ne_tmp]
  · exact kept place loadable.ne_devicesDir
  · rw [resolve, isDir_made devices kept]
    exact elsewhere

/-- The path of a state file leads to a file that is loaded. -/
theorem loadable_deletes (leads : dir.deletes endpoint = some place) : Loadable place := by
  obtain ⟨name, parent, rfl, last⟩ := resolve_cons leads
  obtain ⟨front, ends⟩ := getLast_join ⟨storeDir, ["devices"]⟩ endpoint
    (show '/' ∉ ".json".toList by decide)
  rw [statePath, ends] at last
  exact ⟨front, parent, by rw [Option.some.inj last]⟩

/-! ## Where paths lead -/

theorem deletes_deleteDeviceState (gone : String) :
    (dir.deleteDeviceState gone).deletes = dir.deletes := by
  funext endpoint
  exact congrFun (resolve_congr isDir_deleteDeviceState) _

theorem deletes_writeRegistry : (dir.writeRegistry doc).deletes = dir.deletes := by
  funext endpoint
  exact congrFun (resolve_congr isDir_writeAtomic) _

/-- Where saves lead is never changed. -/
theorem savesTo_of_follows {after : StateDir} (follows : Follows dir.files after.files) :
    after.savesTo = dir.savesTo := by
  have dirs : (fun place => decide (place = devicesDir storeDir) || after.files.isDir place) =
      fun place => decide (place = devicesDir storeDir) || dir.files.isDir place := by
    funext place
    by_cases here : place = devicesDir storeDir
    · rw [decide_eq_true here, Bool.true_or, Bool.true_or]
    · rw [follows.dirs place here]
  funext endpoint
  exact congrArg (fun isDir => leads isDir (statePath storeDir endpoint)) dirs

/-- A state file that is there is where its path leads. -/
theorem deletes_of_state (there : (dir.state endpoint).isSome) :
    dir.deletes endpoint = some (stateFile storeDir endpoint) := by
  have held : (dir.files.lookup (stateFile storeDir endpoint)).isSome := by
    rw [StateDir.state, StateDir.content] at there
    exact Option.isSome_of_isSome_bind there
  have named : FileNamed endpoint := fileNamed_of_valid (dir.files.named _ _ held)
  have devices : dir.files.isDir (devicesDir storeDir) = true := by
    by_contra none_
    rw [stateFile, lookup_outside (Bool.not_eq_true _ ▸ none_)] at held
    cases held
  rw [StateDir.deletes, resolve_statePath named, if_pos devices]

/-! ## The state files -/

theorem state_iff {doc : Option Json} : dir.state endpoint = some doc ↔
    dir.files.lookup (stateFile storeDir endpoint) = some (.file doc) := by
  rw [StateDir.state, StateDir.content]
  cases dir.files.lookup (stateFile storeDir endpoint) with
  | none => simp
  | some entry => cases entry <;> simp [Entry.content]

theorem lookup_loadAllDeviceStates : dir.loadAllDeviceStates.lookup endpoint = some value ↔
    endpoint ≠ "" ∧ dir.state endpoint = some (some value) := by
  rw [StateDir.loadAllDeviceStates, lookup_loaded, state_iff]
  simp only [id, exists_eq_right]

/-- A state file can be saved under the endpoint: its name fits, and no directory
is in the way. -/
structure Savable (dir : StateDir) (endpoint : String) : Prop where
  accepted : endpoint ≠ ""
  named : FileNamed endpoint
  file : dir.files.isDir (stateFile storeDir endpoint) = false
  tmp : dir.files.isDir (tmpFile storeDir endpoint) = false

theorem Savable.follows {after : StateDir} (savable : Savable dir endpoint)
    (follows : Follows dir.files after.files) : Savable after endpoint where
  accepted := savable.accepted
  named := savable.named
  file := (follows.dirs _ stateFile_ne_devicesDir).trans savable.file
  tmp := (follows.dirs _ tmpFile_ne_devicesDir).trans savable.tmp

theorem state_saveDeviceState (savable : Savable dir endpoint) :
    (dir.saveDeviceState endpoint value).state endpoint = some (some value) := by
  have plain {place : List String} (other : dir.files.isDir place = false) :
      dir.files.lookup place ≠ some .dir := by
    intro held
    rw [isDir_iff.mpr (Or.inr held)] at other
    cases other
  rw [StateDir.state, StateDir.content]
  change ((StateFiles.saveDeviceState some storeDir endpoint value dir.files).lookup _).bind _ = _
  rw [lookup_saved savable.accepted savable.named dir.there dir.devices (plain savable.file)
    (plain savable.tmp) stateFile_ne_devicesDir, if_pos rfl]
  rfl

end Lwm2mServer.StateDirectory
