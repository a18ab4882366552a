import Lwm2mServer.RestartedRegistry
import Lwm2mServer.StateDirectory

/-! What `main` does with the state directory before the server starts: it
loads the registry and the included list, drops what is not on the list, and
restores the rest. A list that cannot be read counts as an empty one, so
nothing is on it. -/
namespace Lwm2mServer.StartUp
open Library StateFiles StateDirectory DeviceRegistry RestartedRegistry

/-- The consistency check of the registry: entries not on the list lose their
state files, and the registry is saved without them. -/
def dropOrphans (sessionTo : String) (included : List String) (snapshots : List DeviceSnapshot)
    (dir : StateDir) : StateDir :=
  let valid := snapshots.filter fun s => s.endpoint ∈ included
  let orphaned := snapshots.filter fun s => s.endpoint ∉ included
  if orphaned = [] then dir
  else
    (orphaned.foldl (fun dir s => dir.deleteDeviceState s.endpoint) dir).writeRegistry
      (saveRegistry sessionTo valid)

/-- One round of the loop over the state files. -/
def restoreOrDelete (included : List String) (acc : DeviceRegistry × StateDir)
    (loaded : String × Json) : DeviceRegistry × StateDir :=
  if loaded.1 ∈ included then (acc.1.restoreDeviceState loaded.1 loaded.2, acc.2)
  else (acc.1, acc.2.deleteDeviceState loaded.1)

/-- The loaded states; the order of the loop is that of a hash map. -/
def loadedStates (dir : StateDir) : List (String × Json) :=
  dir.loadAllDeviceStates.entries.map fun entry => (entry.1, entry.2)

/-- The registry the server starts with, and what is left in the directory. -/
def startUp (sessionTo : String) (unixNow : Nat) (now : Instant) (dir : StateDir) :
    DeviceRegistry × StateDir :=
  let snapshots := loadRegistry unixNow dir.registry.document
  let included := loadIncluded dir.included.document
  let dir := dropOrphans sessionTo included snapshots dir
  let valid := snapshots.filter fun s => s.endpoint ∈ included
  (loadedStates dir).foldl (restoreOrDelete included) (DeviceRegistry.new.restore now valid, dir)

/-! ## What is lost -/

/-- The list as `load_included` reads it, when it can. -/
def readList (file : Stored) : Option (List String) :=
  (file.document.bind Json.asArray).bind fun items => items.mapM Json.asStr

/-- The entries of a device in the registry file. -/
def entriesFor (file : Stored) (endpoint : String) : List Json :=
  ((file.document.bind fun doc => (doc.get "clients").asArray).getD []).filter fun client =>
    (client.get "ep").asStr.map sgtinFromEp = some endpoint

/-- The file that the path of an endpoint's state leads to. -/
def stateAt (dir : StateDir) (endpoint : String) : Option (Option Json) :=
  (dir.deletes endpoint).bind dir.content

/-- A device is on the list. -/
def Listed (dir : StateDir) (endpoint : String) : Prop :=
  ∃ list, readList dir.included = some list ∧ endpoint ∈ list

/-- A device has lost its state file, one of its registry entries, or its place
on the list. -/
def Lost (dir dir' : StateDir) (endpoint : String) : Prop :=
  ((stateAt dir endpoint).isSome ∧ stateAt dir' endpoint = none) ∨
    (entriesFor dir'.registry endpoint).length < (entriesFor dir.registry endpoint).length ∨
    (Listed dir endpoint ∧ ¬ Listed dir' endpoint)

/-- Data is lost only for devices that a readable list leaves out. -/
def OnlyUnlisted (dir dir' : StateDir) : Prop :=
  ∀ endpoint, Lost dir dir' endpoint → ∃ list, readList dir.included = some list ∧ endpoint ∉ list

/-- An orphan's path leads to a file: the registry has a live entry of an
endpoint that is not on the list. -/
def OrphanAt (unixNow : Nat) (list : List String) (dir : StateDir) (place : List String) : Prop :=
  ∃ s ∈ loadRegistry unixNow dir.registry.document, s.endpoint ∉ list ∧
    dir.deletes s.endpoint = some place

instance (unixNow : Nat) (list : List String) (dir : StateDir) (place : List String) :
    Decidable (OrphanAt unixNow list dir place) := inferInstanceAs (Decidable (∃ s ∈ _, _ ∧ _))

/-- The state file of a name that is not on the list, and that can be read. -/
def UnlistedAt (list : List String) (dir : StateDir) (place : List String) : Prop :=
  ∃ name, name ≠ "" ∧ name ∉ list ∧ (∃ state, dir.state name = some (some state)) ∧
    place = stateFile storeDir name

/-- Nothing of a device on the list is at risk. -/
structure Spares (unixNow : Nat) (list : List String) (dir : StateDir) : Prop where
  /-- The registry need not be saved anew, or every entry of a listed device is
  alive; -/
  entries : (∀ s ∈ loadRegistry unixNow dir.registry.document, s.endpoint ∈ list) ∨
    ∀ endpoint ∈ list, (entriesFor dir.registry endpoint).length =
      (loadRegistry unixNow dir.registry.document).countP (·.endpoint = endpoint)
  /-- no path of an orphan leads to the list, unless it is empty, -/
  listKept : list ≠ [] → ¬ OrphanAt unixNow list dir includedFile
  /-- or to a file that the path of a listed device leads to, nor is that file the
  state file of a name that is not listed. -/
  filesKept : ∀ endpoint ∈ list, ∀ place ≠ registryFile, dir.deletes endpoint = some place →
    (dir.content place).isSome → ¬ OrphanAt unixNow list dir place ∧ ¬ UnlistedAt list dir place

/-- The list can be read and its devices are spared, or there is nothing that
could be lost. -/
def NothingAtRisk (unixNow : Nat) (dir : StateDir) : Prop :=
  match readList dir.included with
  | some list => Spares unixNow list dir
  | none => loadRegistry unixNow dir.registry.document = [] ∧
    ∀ endpoint doc, endpoint ≠ "" → dir.state endpoint ≠ some (some doc)

variable {sessionTo : String} {unixNow : Nat} {now : Instant} {dir : StateDir} {endpoint : String}
  {included : List String} {snapshots : List DeviceSnapshot} {place : List String}

theorem loadIncluded_eq (file : Stored) : loadIncluded file.document = (readList file).getD [] := rfl

theorem plain_sgtinFromEp (ep : String) : ':' ∉ (sgtinFromEp ep).toList := by
  intro colon
  rw [sgtinFromEp, String.toList_ofList, List.mem_reverse] at colon
  have passes := List.all_eq_true.mp List.all_takeWhile _ colon
  simp at passes

/-- Every loaded entry is an entry of its endpoint, which has no colon. -/
theorem entry_of_loaded {doc : Option Json} {s : DeviceSnapshot}
    (loaded : s ∈ loadRegistry unixNow doc) :
    ∃ clients client, doc.bind (fun doc => (doc.get "clients").asArray) = some clients ∧
      client ∈ clients ∧ (client.get "ep").asStr.map sgtinFromEp = some s.endpoint := by
  unfold loadRegistry at loaded
  split at loaded
  · rename_i clients found
    obtain ⟨client, member, read⟩ := List.mem_filterMap.mp loaded
    refine ⟨clients, client, found, member, ?_⟩
    obtain ⟨ep, named, rest⟩ := Option.bind_eq_some_iff.mp read
    dsimp only at rest
    split at rest
    · cases rest
    · cases rest
      rw [named]
      rfl
  · cases loaded

theorem entriesFor_of_loaded {file : Stored} {s : DeviceSnapshot}
    (loaded : s ∈ loadRegistry unixNow file.document) : entriesFor file s.endpoint ≠ [] := by
  obtain ⟨clients, client, found, member, named⟩ := entry_of_loaded loaded
  refine List.ne_nil_of_mem (a := client) (List.mem_filter.mpr ⟨?_, decide_eq_true named⟩)
  rw [found]
  exact member

theorem plain_of_loaded {doc : Option Json} {s : DeviceSnapshot}
    (loaded : s ∈ loadRegistry unixNow doc) : ':' ∉ s.endpoint.toList := by
  obtain ⟨_, client, _, _, named⟩ := entry_of_loaded loaded
  obtain ⟨ep, _, same⟩ := Option.map_eq_some_iff.mp named
  exact same ▸ plain_sgtinFromEp ep

/-- The entries that are loaded for an endpoint are among those of the file. -/
theorem countP_loaded_le (file : Stored) (endpoint : String) :
    (loadRegistry unixNow file.document).countP (·.endpoint = endpoint) ≤
      (entriesFor file endpoint).length := by
  unfold loadRegistry entriesFor
  cases file.document.bind fun doc => (doc.get "clients").asArray with
  | none => exact Nat.zero_le _
  | some clients =>
    dsimp only [Option.getD_some]
    rw [List.countP_filterMap, ← List.countP_eq_length_filter]
    refine List.countP_mono_left fun client _ found => ?_
    cases read : loadClient unixNow client with
    | none =>
      rw [read] at found
      cases found
    | some snap =>
      rw [read, Option.map_some, Option.getD_some, decide_eq_true_eq] at found
      obtain ⟨ep, named, rest⟩ := Option.bind_eq_some_iff.mp read
      dsimp only at rest
      split at rest
      · cases rest
      · cases rest
        rw [named]
        exact decide_eq_true (congrArg some found)

/-- A saved registry has as many entries of an endpoint as it was saved with. -/
theorem length_entriesFor_saved (plain : ∀ s ∈ snapshots, ':' ∉ s.endpoint.toList) :
    (entriesFor (.json (saveRegistry sessionTo snapshots)) endpoint).length =
      snapshots.countP (·.endpoint = endpoint) := by
  have clients : (saveRegistry sessionTo snapshots).get "clients" =
      .arr (snapshots.mapIdx (saveClient sessionTo)) := by
    simp [saveRegistry, Json.get, Json.object, Json.field_setField]
  have named (index : Nat) {s : DeviceSnapshot} (member : s ∈ snapshots) :
      ((saveClient sessionTo index s).get "ep").asStr.map sgtinFromEp = some s.endpoint := by
    rw [(fields_saveClient index).ep]
    exact congrArg some (sgtinFromEp_urn (plain s member))
  simp only [entriesFor, Stored.document, Option.bind_some, clients, Json.asArray, Option.getD_some]
  rw [← List.countP_eq_length_filter, List.mapIdx_eq_zipIdx_map, List.countP_map]
  have firsts : snapshots.zipIdx.map Prod.fst = snapshots := List.zipIdx_map_fst ..
  calc _ = snapshots.zipIdx.countP fun pair => pair.1.endpoint = endpoint := by
        refine List.countP_congr fun pair member => ?_
        have inside : pair.1 ∈ snapshots := firsts ▸ List.mem_map_of_mem member
        simp only [Function.comp_apply, named _ inside, Option.some.injEq]
    _ = (snapshots.zipIdx.map Prod.fst).countP (·.endpoint = endpoint) := by rw [List.countP_map]; rfl
    _ = _ := by rw [firsts]

/-! ## What is left -/

theorem mem_loadedStates {state : Json} : (endpoint, state) ∈ loadedStates dir ↔
    endpoint ≠ "" ∧ dir.state endpoint = some (some state) := by
  rw [← lookup_loadAllDeviceStates, loadedStates, List.mem_map]
  constructor
  · rintro ⟨⟨name, doc⟩, member, same⟩
    cases same
    exact AList.mem_lookup_iff.mpr member
  · intro found
    exact ⟨⟨endpoint, state⟩, AList.mem_lookup_iff.mp found, rfl⟩

private theorem names_loaded : endpoint ∈ (loadedStates dir).map Prod.fst ↔
    endpoint ≠ "" ∧ ∃ state, dir.state endpoint = some (some state) := by
  rw [List.mem_map]
  constructor
  · rintro ⟨⟨name, state⟩, member, rfl⟩
    obtain ⟨named, found⟩ := mem_loadedStates.mp member
    exact ⟨named, state, found⟩
  · rintro ⟨named, state, found⟩
    exact ⟨(endpoint, state), mem_loadedStates.mpr ⟨named, found⟩, rfl⟩

/-- What a loop over deletions leaves. -/
private theorem content_deleted (gone : List DeviceSnapshot) (dir : StateDir) :
    (gone.foldl (fun dir s => dir.deleteDeviceState s.endpoint) dir).deletes = dir.deletes ∧
      ∀ place, (gone.foldl (fun dir s => dir.deleteDeviceState s.endpoint) dir).content place =
        if ∃ s ∈ gone, dir.deletes s.endpoint = some place then none else dir.content place := by
  induction gone generalizing dir with
  | nil => simp
  | cons s rest ih =>
    obtain ⟨same, left⟩ := ih (dir.deleteDeviceState s.endpoint)
    rw [deletes_deleteDeviceState] at same left
    refine ⟨same, fun place => ?_⟩
    rw [List.foldl_cons, left, content_deleteDeviceState]
    by_cases here : dir.deletes s.endpoint = some place
    · simp [here]
    · refine if_congr ?_ rfl (if_neg here)
      simp [here]

/-- What the registry check leaves of a file other than the registry. -/
theorem dropOrphans_content (loadable : Loadable place) (other : place ≠ registryFile) :
    (dropOrphans sessionTo included snapshots dir).content place =
      if ∃ s ∈ snapshots, s.endpoint ∉ included ∧ dir.deletes s.endpoint = some place then none
      else dir.content place := by
  have orphan : (∃ s ∈ snapshots.filter (fun s => s.endpoint ∉ included),
      dir.deletes s.endpoint = some place) ↔
      ∃ s ∈ snapshots, s.endpoint ∉ included ∧ dir.deletes s.endpoint = some place := by
    simp only [List.mem_filter, decide_eq_true_eq, and_assoc]
  unfold dropOrphans
  dsimp only
  split
  · rename_i empty
    rw [if_neg]
    rw [← orphan, empty]
    simp
  · rw [content_writeRegistry loadable, if_neg other,
      (content_deleted _ dir).2]
    exact if_congr orphan rfl rfl

theorem dropOrphans_deletes : (dropOrphans sessionTo included snapshots dir).deletes = dir.deletes := by
  unfold dropOrphans
  dsimp only
  split
  · rfl
  · rw [deletes_writeRegistry, (content_deleted _ dir).1]

theorem dropOrphans_registry : (dropOrphans sessionTo included snapshots dir).content registryFile =
    if ∀ s ∈ snapshots, s.endpoint ∈ included then dir.content registryFile
    else some (some (saveRegistry sessionTo (snapshots.filter fun s => s.endpoint ∈ included))) := by
  have empty : snapshots.filter (fun s => s.endpoint ∉ included) = [] ↔
      ∀ s ∈ snapshots, s.endpoint ∈ included := by
    simp [List.filter_eq_nil_iff]
  unfold dropOrphans
  dsimp only
  by_cases all : ∀ s ∈ snapshots, s.endpoint ∈ included
  · rw [if_pos (empty.mpr all), if_pos all]
  · rw [if_neg (empty.not.mpr all), if_neg all, content_writeRegistry loadable_registryFile, if_pos rfl]

/-- What the loop over the loaded states leaves. -/
theorem loop_content (loaded : List (String × Json)) (acc : DeviceRegistry × StateDir) :
    (loaded.foldl (restoreOrDelete included) acc).2.deletes = acc.2.deletes ∧
      ∀ place, (loaded.foldl (restoreOrDelete included) acc).2.content place =
        if ∃ name ∈ loaded.map Prod.fst, name ∉ included ∧ acc.2.deletes name = some place then none
        else acc.2.content place := by
  induction loaded generalizing acc with
  | nil => simp
  | cons entry rest ih =>
    obtain ⟨name, state⟩ := entry
    obtain ⟨same, left⟩ := ih (restoreOrDelete included acc (name, state))
    rw [List.foldl_cons]
    by_cases listed : name ∈ included
    · have kept : (restoreOrDelete included acc (name, state)).2 = acc.2 := by
        rw [restoreOrDelete, if_pos listed]
      rw [kept] at same left
      refine ⟨same, fun place => ?_⟩
      rw [left]
      refine if_congr ?_ rfl rfl
      simp [listed]
    · have gone : (restoreOrDelete included acc (name, state)).2 = acc.2.deleteDeviceState name := by
        rw [restoreOrDelete, if_neg listed]
      rw [gone, deletes_deleteDeviceState] at same left
      refine ⟨same, fun place => ?_⟩
      rw [left, content_deleteDeviceState]
      by_cases here : acc.2.deletes name = some place
      · simp [here, listed]
      · refine if_congr ?_ rfl (if_neg here)
        simp [here]

/-- A start makes no directories. -/
theorem follows_startUp : Follows dir.files (startUp sessionTo unixNow now dir).2.files := by
  have deletions (gone : List DeviceSnapshot) (dir : StateDir) : Follows dir.files
      (gone.foldl (fun dir s => dir.deleteDeviceState s.endpoint) dir).files := by
    induction gone generalizing dir with
    | nil => exact .refl _
    | cons s rest ih => exact Follows.trans follows_deleteDeviceState (ih (dir.deleteDeviceState s.endpoint))
  have dropped (included : List String) (snapshots : List DeviceSnapshot) :
      Follows dir.files (dropOrphans sessionTo included snapshots dir).files := by
    unfold dropOrphans
    dsimp only
    split
    · exact .refl _
    · exact (deletions _ dir).trans follows_writeRegistry
  have loop (included : List String) (loaded : List (String × Json)) (acc : DeviceRegistry × StateDir) :
      Follows acc.2.files (loaded.foldl (restoreOrDelete included) acc).2.files := by
    induction loaded generalizing acc with
    | nil => exact .refl _
    | cons entry rest ih =>
      refine Follows.trans ?_ (ih _)
      rw [restoreOrDelete]
      split
      · exact .refl _
      · exact follows_deleteDeviceState
  apply (dropped (loadIncluded dir.included.document) (loadRegistry unixNow dir.registry.document)).trans
  exact loop _ _ (_, _)

/-- Where paths lead does not change. -/
theorem startUp_deletes : (startUp sessionTo unixNow now dir).2.deletes = dir.deletes :=
  (loop_content _ _).1.trans dropOrphans_deletes

/-- The loop deletes the state files of the names that are loaded, and no other
files. -/
private theorem loop_deletes {left : StateDir} :
    (∃ name ∈ (loadedStates left).map Prod.fst, name ∉ included ∧ left.deletes name = some place) ↔
      UnlistedAt included left place := by
  constructor
  · rintro ⟨name, loaded, unlisted, leads⟩
    obtain ⟨named, state, found⟩ := names_loaded.mp loaded
    rw [deletes_of_state (by rw [found]; rfl)] at leads
    exact ⟨name, named, unlisted, ⟨state, found⟩, (Option.some.inj leads).symm⟩
  · rintro ⟨name, named, unlisted, ⟨state, found⟩, rfl⟩
    have loaded := names_loaded.mpr ⟨named, state, found⟩
    exact ⟨name, loaded, unlisted, deletes_of_state (by rw [found]; rfl)⟩

/-- What the check of the registry leaves of an unlisted name's state. -/
private theorem unlistedAt_dropOrphans (loadable : Loadable place) (other : place ≠ registryFile)
    (kept : ¬ ∃ s ∈ snapshots, s.endpoint ∉ included ∧ dir.deletes s.endpoint = some place) :
    UnlistedAt included (dropOrphans sessionTo included snapshots dir) place ↔
      UnlistedAt included dir place := by
  refine exists_congr fun name => and_congr_right fun _ => and_congr_right fun _ => ?_
  refine and_congr_left fun here => ?_
  subst here
  rw [StateDir.state, dropOrphans_content loadable other, if_neg kept, StateDir.state]

/-- A file is gone that the path of an orphan leads to, or that is a state file
that can be read and whose name is not on the list, -/
theorem startUp_gone (loadable : Loadable place) (other : place ≠ registryFile)
    (atRisk : OrphanAt unixNow ((readList dir.included).getD []) dir place ∨
      UnlistedAt ((readList dir.included).getD []) dir place) :
    (startUp sessionTo unixNow now dir).2.content place = none := by
  rw [startUp, loadIncluded_eq, (loop_content _ _).2]
  by_cases orphan : OrphanAt unixNow ((readList dir.included).getD []) dir place
  · have gone : (dropOrphans sessionTo ((readList dir.included).getD [])
        (loadRegistry unixNow dir.registry.document) dir).content place = none :=
      (dropOrphans_content loadable other).trans (if_pos orphan)
    rw [gone, ite_self]
  · apply if_pos
    apply (loop_deletes).mpr
    exact (unlistedAt_dropOrphans loadable other orphan).mpr (atRisk.resolve_left orphan)

/-- and every other but the registry is kept. -/
theorem startUp_kept (loadable : Loadable place) (other : place ≠ registryFile)
    (orphan : ¬ OrphanAt unixNow ((readList dir.included).getD []) dir place)
    (unlisted : ¬ UnlistedAt ((readList dir.included).getD []) dir place) :
    (startUp sessionTo unixNow now dir).2.content place = dir.content place := by
  have left : (dropOrphans sessionTo ((readList dir.included).getD [])
      (loadRegistry unixNow dir.registry.document) dir).content place = dir.content place :=
    (dropOrphans_content loadable other).trans (if_neg orphan)
  rw [startUp, loadIncluded_eq, (loop_content _ _).2, ← left]
  apply if_neg
  intro gone
  apply unlisted
  apply (unlistedAt_dropOrphans loadable other orphan).mp
  exact (loop_deletes).mp gone

theorem startUp_fewer (loadable : Loadable place) (other : place ≠ registryFile) :
    (startUp sessionTo unixNow now dir).2.content place = none ∨
      (startUp sessionTo unixNow now dir).2.content place = dir.content place := by
  by_cases gone : OrphanAt unixNow ((readList dir.included).getD []) dir place ∨
      UnlistedAt ((readList dir.included).getD []) dir place
  · exact Or.inl (startUp_gone loadable other gone)
  · obtain ⟨orphan, unlisted⟩ := not_or.mp gone
    exact Or.inr (startUp_kept loadable other orphan unlisted)

/-- The registry file after the start. -/
theorem startUp_registryContent : (startUp sessionTo unixNow now dir).2.content registryFile =
    if ∀ s ∈ loadRegistry unixNow dir.registry.document, s.endpoint ∈ (readList dir.included).getD []
    then dir.content registryFile
    else some (some (saveRegistry sessionTo ((loadRegistry unixNow dir.registry.document).filter
      fun s => s.endpoint ∈ (readList dir.included).getD []))) := by
  rw [startUp, loadIncluded_eq, (loop_content _ _).2, ← dropOrphans_registry]
  apply if_neg
  intro gone
  obtain ⟨name, -, -, -, same⟩ := (loop_deletes).mp gone
  exact stateFile_ne_registryFile name same.symm

theorem startUp_registry : (startUp sessionTo unixNow now dir).2.registry =
    if ∀ s ∈ loadRegistry unixNow dir.registry.document, s.endpoint ∈ (readList dir.included).getD []
    then dir.registry
    else .json (saveRegistry sessionTo ((loadRegistry unixNow dir.registry.document).filter
      fun s => s.endpoint ∈ (readList dir.included).getD [])) := by
  rw [StateDir.registry, StateDir.stored, startUp_registryContent]
  by_cases all : ∀ s ∈ loadRegistry unixNow dir.registry.document,
      s.endpoint ∈ (readList dir.included).getD []
  · rw [if_pos all, if_pos all]
    rfl
  · rw [if_neg all, if_neg all]

/-- The included list is lost only to an orphan. -/
theorem startUp_included (kept : ¬ OrphanAt unixNow ((readList dir.included).getD []) dir includedFile) :
    (startUp sessionTo unixNow now dir).2.included = dir.included := by
  rw [StateDir.included, StateDir.stored, startUp_kept loadable_includedFile (by decide) kept]
  · rfl
  · rintro ⟨name, -, -, -, same⟩
    exact stateFile_ne_includedFile name same.symm

/-- The state file of a listed endpoint is lost only to an orphan. -/
theorem startUp_state (listed : endpoint ∈ (readList dir.included).getD [])
    (kept : ¬ OrphanAt unixNow ((readList dir.included).getD []) dir (stateFile storeDir endpoint)) :
    (startUp sessionTo unixNow now dir).2.state endpoint = dir.state endpoint := by
  rw [StateDir.state, startUp_kept (loadable_stateFile endpoint) (stateFile_ne_registryFile endpoint) kept]
  · rfl
  · rintro ⟨name, -, unlisted, -, same⟩
    exact unlisted (stateFile_inj same ▸ listed)

/-! ## The registry -/

/-- A device without what it reported. -/
def unreported (dev : Device) : Device := { dev with state := .obj [] }

private theorem unreported_restore (r : DeviceRegistry) (endpoint : String) (state : Json) (id : UInt32) :
    ((r.restoreDeviceState endpoint state).byId.lookup id).map unreported =
      (r.byId.lookup id).map unreported := by
  unfold restoreDeviceState
  split
  · rfl
  · split
    · rfl
    · rename_i target index dev held
      rw [putDevice, Table.lookup_insert_if]
      split
      · rename_i here
        rw [here, held]
        rfl
      · rfl

/-- The devices are those of the entries on the list, whatever is restored of
their reports. -/
theorem startUp_byId (sessionTo : String) (unixNow : Nat) (now : Instant) (dir : StateDir)
    (id : UInt32) :
    ((startUp sessionTo unixNow now dir).1.byId.lookup id).map unreported =
      ((DeviceRegistry.new.restore now ((loadRegistry unixNow dir.registry.document).filter fun s =>
        s.endpoint ∈ (readList dir.included).getD [])).byId.lookup id).map unreported := by
  have loop (included : List String) (loaded : List (String × Json))
      (acc : DeviceRegistry × StateDir) :
      ((loaded.foldl (restoreOrDelete included) acc).1.byId.lookup id).map unreported =
        (acc.1.byId.lookup id).map unreported := by
    induction loaded generalizing acc with
    | nil => rfl
    | cons entry rest ih =>
      rw [List.foldl_cons, ih, restoreOrDelete]
      split
      · exact unreported_restore ..
      · rfl
  exact loop _ _ _

/-! ## The condition -/

/-- All snapshots of a listed endpoint are kept. -/
private theorem countP_listed {list : List String} (listed : endpoint ∈ list) :
    (snapshots.filter fun s => s.endpoint ∈ list).countP (·.endpoint = endpoint) =
      snapshots.countP (·.endpoint = endpoint) := by
  rw [List.countP_filter]
  refine List.countP_congr fun s _ => ?_
  rw [Bool.and_eq_true, decide_eq_true_eq, decide_eq_true_eq]
  exact and_iff_left_of_imp fun same => same ▸ listed

/-- What a registry saved anew has of a listed device. -/
private theorem entries_startUp {list : List String} (read : readList dir.included = some list)
    (orphans : ¬ ∀ s ∈ loadRegistry unixNow dir.registry.document, s.endpoint ∈ list)
    (listed : endpoint ∈ list) :
    (entriesFor (startUp sessionTo unixNow now dir).2.registry endpoint).length =
      (loadRegistry unixNow dir.registry.document).countP (·.endpoint = endpoint) := by
  rw [startUp_registry, read, Option.getD_some, if_neg orphans,
    length_entriesFor_saved fun s member => plain_of_loaded (List.mem_of_mem_filter member),
    countP_listed listed]

/-- A state file that is gone was one that an orphan's path leads to, or that of an
unlisted name. -/
private theorem atRisk_of_gone (there : (stateAt dir endpoint).isSome)
    (gone : stateAt (startUp sessionTo unixNow now dir).2 endpoint = none) :
    ∃ place ≠ registryFile, dir.deletes endpoint = some place ∧ (dir.content place).isSome ∧
      (OrphanAt unixNow ((readList dir.included).getD []) dir place ∨
        UnlistedAt ((readList dir.included).getD []) dir place) := by
  rw [stateAt] at there
  rw [stateAt, startUp_deletes] at gone
  cases leads : dir.deletes endpoint with
  | none =>
    rw [leads] at there
    cases there
  | some place =>
    rw [leads, Option.bind_some] at there gone
    have other : place ≠ registryFile := by
      rintro rfl
      rw [startUp_registryContent] at gone
      split at gone
      · rw [gone] at there
        cases there
      · cases gone
    refine ⟨place, other, rfl, there, ?_⟩
    by_contra safe
    obtain ⟨orphan, unlisted⟩ := not_or.mp safe
    rw [startUp_kept (loadable_deletes leads) other orphan unlisted] at gone
    rw [gone] at there
    cases there

/-- And such a file is lost. -/
private theorem lost_of_atRisk (other : place ≠ registryFile)
    (leads : dir.deletes endpoint = some place) (there : (dir.content place).isSome)
    (atRisk : OrphanAt unixNow ((readList dir.included).getD []) dir place ∨
      UnlistedAt ((readList dir.included).getD []) dir place) :
    Lost dir (startUp sessionTo unixNow now dir).2 endpoint := by
  refine Or.inl ⟨?_, ?_⟩
  · rw [stateAt, leads, Option.bind_some]
    exact there
  · rw [stateAt, startUp_deletes, leads, Option.bind_some]
    exact startUp_gone (loadable_deletes leads) other atRisk

/-- With a list that can be read, orphans and unlisted names lose a listed device
what their paths lead to, and a registry saved anew its entries that are no
longer alive. -/
private theorem onlyUnlisted_of_list {list : List String} (read : readList dir.included = some list)
    (spares : Spares unixNow list dir) :
    OnlyUnlisted dir (startUp sessionTo unixNow now dir).2 := by
  have named : (readList dir.included).getD [] = list := by rw [read, Option.getD_some]
  intro endpoint lost
  refine ⟨list, read, fun listed => ?_⟩
  rcases lost with ⟨there, gone⟩ | fewer | ⟨-, off⟩
  · obtain ⟨place, other, leads, held, atRisk⟩ := atRisk_of_gone there gone
    obtain ⟨orphan, unlisted⟩ := spares.filesKept endpoint listed place other leads held
    rw [named] at atRisk
    exact atRisk.elim orphan unlisted
  · by_cases orphans : ∀ s ∈ loadRegistry unixNow dir.registry.document, s.endpoint ∈ list
    · rw [startUp_registry, named, if_pos orphans] at fewer
      exact Nat.lt_irrefl _ fewer
    · rw [entries_startUp read orphans listed, spares.entries.resolve_left orphans endpoint listed]
        at fewer
      exact Nat.lt_irrefl _ fewer
  · refine off ⟨list, ?_, listed⟩
    rw [startUp_included (named ▸ spares.listKept (List.ne_nil_of_mem listed))]
    exact read

private theorem spares_of_onlyUnlisted {list : List String} (read : readList dir.included = some list)
    (kept : OnlyUnlisted dir (startUp sessionTo unixNow now dir).2) : Spares unixNow list dir := by
  have named : (readList dir.included).getD [] = list := by rw [read, Option.getD_some]
  have spared {endpoint : String} (listed : endpoint ∈ list) :
      ¬ Lost dir (startUp sessionTo unixNow now dir).2 endpoint := by
    intro lost
    obtain ⟨list', read', unlisted⟩ := kept endpoint lost
    rw [read] at read'
    exact unlisted (Option.some.inj read' ▸ listed)
  refine ⟨?_, fun some_ orphan => ?_, fun endpoint listed place other leads there => ?_⟩
  · rw [or_iff_not_imp_left]
    intro orphans endpoint listed
    apply Nat.le_antisymm _ (countP_loaded_le dir.registry endpoint)
    rw [← entries_startUp read orphans listed]
    exact Nat.le_of_not_lt fun fewer => spared listed (Or.inr (Or.inl fewer))
  · obtain ⟨endpoint, listed⟩ := List.exists_mem_of_ne_nil list some_
    have gone : (startUp sessionTo unixNow now dir).2.content includedFile = none :=
      startUp_gone loadable_includedFile (by decide) (Or.inl (named ▸ orphan))
    refine spared listed (Or.inr (Or.inr ⟨⟨list, read, listed⟩, ?_⟩))
    rintro ⟨list', read', -⟩
    rw [StateDir.included, StateDir.stored, gone] at read'
    cases read'
  · have held (atRisk : OrphanAt unixNow list dir place ∨ UnlistedAt list dir place) : False :=
      spared listed (lost_of_atRisk other leads there (named ▸ atRisk))
    exact ⟨fun orphan => held (Or.inl orphan), fun unlisted => held (Or.inr unlisted)⟩

/-- With a list that cannot be read, anything alive or readable is lost. -/
private theorem onlyUnlisted_iff_nothing (unread : readList dir.included = none) :
    OnlyUnlisted dir (startUp sessionTo unixNow now dir).2 ↔
      loadRegistry unixNow dir.registry.document = [] ∧
        ∀ endpoint doc, endpoint ≠ "" → dir.state endpoint ≠ some (some doc) := by
  have named : (readList dir.included).getD [] = [] := by rw [unread, Option.getD_none]
  have never (kept : OnlyUnlisted dir (startUp sessionTo unixNow now dir).2) (endpoint : String) :
      ¬ Lost dir (startUp sessionTo unixNow now dir).2 endpoint := by
    intro lost
    obtain ⟨list, read, _⟩ := kept endpoint lost
    rw [unread] at read
    cases read
  constructor
  · intro kept
    constructor
    · by_contra some_
      obtain ⟨s, live⟩ := List.exists_mem_of_ne_nil _ some_
      have orphans : ¬ ∀ s ∈ loadRegistry unixNow dir.registry.document,
          s.endpoint ∈ ([] : List String) := fun all => List.not_mem_nil (all s live)
      have nobody : (loadRegistry unixNow dir.registry.document).filter
          (fun s => s.endpoint ∈ ([] : List String)) = [] := by simp
      refine never kept s.endpoint (Or.inr (Or.inl ?_))
      rw [startUp_registry, named, if_neg orphans, nobody, length_entriesFor_saved (by simp)]
      exact List.length_pos_of_ne_nil (entriesFor_of_loaded live)
    · intro endpoint doc accepted found
      have there : (dir.state endpoint).isSome := by
        rw [found]
        rfl
      have unlisted : UnlistedAt [] dir (stateFile storeDir endpoint) :=
        ⟨endpoint, accepted, List.not_mem_nil, ⟨doc, found⟩, rfl⟩
      apply never kept endpoint
      apply lost_of_atRisk (stateFile_ne_registryFile endpoint) (deletes_of_state there) there
      rw [named]
      exact Or.inr unlisted
  · rintro ⟨dead, unreadable⟩ endpoint (⟨there, gone⟩ | fewer | ⟨⟨list, read, -⟩, -⟩)
    · obtain ⟨place, -, -, -, ⟨s, member, -⟩ | ⟨name, accepted, -, ⟨state, found⟩, -⟩⟩ :=
        atRisk_of_gone there gone
      · rw [dead] at member
        cases member
      · exact absurd found (unreadable name state accepted)
    · rw [startUp_registry, dead, if_pos (by simp)] at fewer
      exact absurd fewer (Nat.lt_irrefl _)
    · rw [unread] at read
      cases read

/-- **Start-up deletes data of unlisted devices only, exactly if nothing is at
risk**: a list that cannot be read loses all that is alive or readable. -/
theorem onlyUnlisted_iff (sessionTo : String) (unixNow : Nat) (now : Instant) (dir : StateDir) :
    OnlyUnlisted dir (startUp sessionTo unixNow now dir).2 ↔ NothingAtRisk unixNow dir := by
  unfold NothingAtRisk
  cases read : readList dir.included with
  | some list => exact ⟨spares_of_onlyUnlisted read, onlyUnlisted_of_list read⟩
  | none => exact onlyUnlisted_iff_nothing read

/-- A mower in the registry file. -/
def mowerClient (ep : String) : Json :=
  .obj [("end_of_life", .int 1800000000), ("ep", .str ep), ("reg_id", .int 1)]

def mowerState : List String × Entry (Option Json) :=
  (stateFile storeDir "mower", .file (some (.obj [])))

/-- A directory whose included list was cut off, with a mower's registration
and its state. -/
def cutOffList : StateDir where
  files := .ofList (directories ++
    [(registryFile, .file (some (.obj [("clients", .arr [mowerClient "urn:dev:sg:mower"])]))),
      (includedFile, .file none), mowerState])
  there := rfl
  devices := Or.inr rfl
  saved := by decide

/-- The mower loses its registration and its state file. -/
theorem cutOffList_loses : ¬ OnlyUnlisted cutOffList (startUp "" 1700000000 0 cutOffList).2 ∧
    (startUp "" 1700000000 0 cutOffList).2.state "mower" = none ∧
    (entriesFor (startUp "" 1700000000 0 cutOffList).2.registry "mower").length = 0 := by
  have entries : (entriesFor (startUp "" 1700000000 0 cutOffList).2.registry "mower").length = 0 := by
    decide +kernel
  have before : (entriesFor cutOffList.registry "mower").length = 1 := by decide +kernel
  have unread : readList cutOffList.included = none := by decide +kernel
  have lost : Lost cutOffList (startUp "" 1700000000 0 cutOffList).2 "mower" := by
    refine Or.inr (Or.inl ?_)
    rw [entries, before]
    exact Nat.one_pos
  refine ⟨fun kept => ?_, by decide +kernel, entries⟩
  obtain ⟨list, read, _⟩ := kept "mower" lost
  rw [unread] at read
  cases read

/-- A directory with a listed mower, and a registration under a name whose path
leads to the mower's state. -/
def strayOrphan : StateDir where
  files := .ofList (directories ++
    [(registryFile, .file (some (.obj [("clients", .arr [mowerClient "../devices/mower"])]))),
      (includedFile, .file (some (.arr [.str "mower"]))), mowerState])
  there := rfl
  devices := Or.inr rfl
  saved := by decide

example : readList strayOrphan.included = some ["mower"] ∧
    (strayOrphan.state "mower").isSome ∧
    (startUp "" 1700000000 0 strayOrphan).2.state "mower" = none := by decide +kernel

end Lwm2mServer.StartUp
