import Mathlib.Data.List.Induction
import Lwm2mServer.Json
import Lwm2mServer.Library.Paths
import Lwm2mServer.Server

/-! Where `persistence.rs` puts the state of a device. The endpoint is spliced
into a path as it came from the network. A slash in it names a directory, and so
can lead out of `devices/`, to the other files of the server and to the state
files of other devices; what it can never do is come back as a name when the
directory is read. -/
namespace Lwm2mServer.StateFiles
open Library FileSystem

/-- The directory of the state files. -/
def devicesDir (dir : List String) : List String := "devices" :: dir

/-- `devices_dir.join(format!("{endpoint}.json"))`. -/
def statePath (dir : List String) (endpoint : String) : Location :=
  Location.join ⟨dir, ["devices"]⟩ (endpoint ++ ".json")

/-- `path.with_extension("tmp")`. -/
def tmpPath (path : Location) : Location :=
  { path with
    components := path.components.dropLast ++
      (path.components.getLast?.map fun name => withExtension name "tmp").toList }

variable {α : Type}

/-- `write_atomic`: a temporary file that cannot be renamed stays. -/
def writeAtomic (fs : FileSystem α) (path : Location) (data : α) : FileSystem α :=
  match fs.write (tmpPath path) data with
  | none => fs
  | some written => (written.rename (tmpPath path) path).getD written

/-- `save_device_state`, for a JSON writer. -/
def saveDeviceState (toVecPretty : Json → α) (dir : List String) (endpoint : String) (state : Json)
    (fs : FileSystem α) : FileSystem α :=
  match fs.createDir (devicesDir dir) with
  | none => fs
  | some fs => writeAtomic fs (statePath dir endpoint) (toVecPretty state)

/-- `delete_device_state`. -/
def deleteDeviceState (dir : List String) (endpoint : String) (fs : FileSystem α) :
    FileSystem α :=
  (fs.removeFile (statePath dir endpoint)).getD fs

/-- What `load_all_device_states` makes of one entry, for a JSON reader. -/
def loadEntry (fromStr : α → Option Json) : String × Entry α → Option (String × Json)
  | (name, .file content) =>
    match fileParts name with
    | (stem, some "json") => if stem = "" then none else (fromStr content).map (stem, ·)
    | _ => none
  | (_, .dir) => none

/-- `load_all_device_states`. -/
def loadAllDeviceStates (fromStr : α → Option Json) (dir : List String) (fs : FileSystem α) :
    Table String Json :=
  ((fs.readDir (devicesDir dir)).filterMap (loadEntry fromStr)).foldl
    (fun states loaded => states.insert loaded.1 loaded.2) ∅

/-- The state directory is there, and holds files only in `devices/`. -/
structure Prepared (dir : List String) (fs : FileSystem α) : Prop where
  there : fs.isDir dir = true
  devices : fs.lookup (devicesDir dir) = none ∨ fs.lookup (devicesDir dir) = some .dir
  files : ∀ name, fs.lookup (name :: devicesDir dir) ≠ some .dir

/-- The file of an endpoint in `devices/`, and the temporary one a save uses. -/
def stateFile (dir : List String) (endpoint : String) : List String :=
  (endpoint ++ ".json") :: devicesDir dir

def tmpFile (dir : List String) (endpoint : String) : List String :=
  (endpoint ++ ".tmp") :: devicesDir dir

/-- A save touches the state file of the endpoint only, apart from its own
temporary file, which is gone again, and the directory `devices/`, which it may
have made; and what is loaded afterwards differs in this endpoint only. -/
structure Saved (fromStr : α → Option Json) (dir : List String) (endpoint : String) (state : Json)
    (fs after : FileSystem α) : Prop where
  confined : ∀ place, place ≠ stateFile dir endpoint → place ≠ tmpFile dir endpoint →
    place ≠ devicesDir dir → after.lookup place = fs.lookup place
  tidy : after.lookup (tmpFile dir endpoint) = none
  loaded : (loadAllDeviceStates fromStr dir after).lookup endpoint = some state
  others : ∀ other, other ≠ endpoint → (loadAllDeviceStates fromStr dir after).lookup other =
    (loadAllDeviceStates fromStr dir fs).lookup other

/-- A deletion touches the state file of the endpoint only. -/
structure Deleted (dir : List String) (endpoint : String) (fs after : FileSystem α) : Prop where
  gone : after.lookup (stateFile dir endpoint) = none
  confined : ∀ place, place ≠ stateFile dir endpoint → after.lookup place = fs.lookup place

/-- The endpoint makes a file name: it has no slash and no zero character, and
at most 250 bytes. -/
def FileNamed (endpoint : String) : Prop :=
  '/' ∉ endpoint.toList ∧ '\x00' ∉ endpoint.toList ∧ byteLen endpoint.toList ≤ 250

instance (endpoint : String) : Decidable (FileNamed endpoint) :=
  inferInstanceAs (Decidable (_ ∧ _ ∧ _))

variable {fromStr : α → Option Json} {toVecPretty : Json → α} {dir : List String}
  {endpoint : String} {state : Json} {fs after : FileSystem α}

/-! ## Names -/

private theorem validName_append {suffix : String} (named : FileNamed endpoint)
    (plain : '/' ∉ suffix.toList ∧ '\x00' ∉ suffix.toList) (longer : 3 ≤ suffix.toList.length)
    (bytes : byteLen suffix.toList ≤ 5) : validName (endpoint ++ suffix) = true := by
  obtain ⟨slash, zero, size⟩ := named
  have other (text : String) (short : text.toList.length < 3) : endpoint ++ suffix ≠ text := by
    rintro rfl
    rw [String.toList_append, List.length_append] at short
    omega
  simp only [validName, Bool.and_eq_true, decide_eq_true_eq, String.toList_append, List.mem_append,
    byteLen_append]
  refine ⟨⟨⟨⟨⟨other _ (by decide), other _ (by decide)⟩, other _ (by decide)⟩, ?_⟩, ?_⟩, by omega⟩
  · exact fun either => either.elim slash plain.1
  · exact fun either => either.elim zero plain.2

theorem fileNamed_of_valid (valid : validName (endpoint ++ ".json") = true) :
    FileNamed endpoint := by
  have size : byteLen ".json".toList = 5 := by decide
  simp only [validName, Bool.and_eq_true, decide_eq_true_eq, String.toList_append, List.mem_append,
    byteLen_append, size] at valid
  obtain ⟨⟨⟨-, slash⟩, zero⟩, bytes⟩ := valid
  exact ⟨fun member => slash (Or.inl member), fun member => zero (Or.inl member), by omega⟩

private theorem fileParts_json (accepted : endpoint ≠ "") :
    fileParts (endpoint ++ ".json") = (endpoint, some "json") := by
  have parts := fileParts_append accepted (show '.' ∉ "json".toList by decide) (by decide)
  rwa [String.append_assoc] at parts

/-! ## Loading -/

private theorem lookup_foldl_insert {K V : Type} [DecidableEq K] (pairs : List (K × V))
    (same : ∀ key value value', (key, value) ∈ pairs → (key, value') ∈ pairs → value = value')
    {key : K} {value : V} :
    (pairs.foldl (fun (table : Table K V) pair => table.insert pair.1 pair.2) ∅).lookup key = some value ↔
      (key, value) ∈ pairs := by
  induction pairs using List.reverseRecOn with
  | nil => simp
  | append_singleton front last ih =>
    obtain ⟨name, stored⟩ := last
    rw [List.foldl_append, List.foldl_cons, List.foldl_nil, Table.lookup_insert_if]
    have before := ih fun key value value' first second =>
      same key value value' (List.mem_append_left _ first) (List.mem_append_left _ second)
    by_cases here : key = name
    · subst here
      rw [if_pos rfl, Option.some.injEq, List.mem_append, List.mem_singleton, Prod.mk.injEq]
      refine ⟨fun equal => Or.inr ⟨rfl, equal.symm⟩, ?_⟩
      rintro (old | ⟨-, new⟩)
      · exact same key stored value (List.mem_append_right _ (List.mem_singleton_self _))
          (List.mem_append_left _ old)
      · exact new.symm
    · rw [if_neg here, before, List.mem_append, List.mem_singleton, Prod.mk.injEq]
      exact ⟨Or.inl, fun either => either.elim id fun both => absurd both.1 here⟩

private theorem loadEntry_iff {name : String} {entry : Entry α} :
    loadEntry fromStr (name, entry) = some (endpoint, state) ↔
      endpoint ≠ "" ∧ name = endpoint ++ ".json" ∧ ∃ content, entry = .file content ∧
        fromStr content = some state := by
  constructor
  · intro loaded
    cases entry with
    | dir => cases loaded
    | file content =>
      simp only [loadEntry] at loaded
      split at loaded
      · rename_i stem parts
        split at loaded
        · cases loaded
        · rename_i named
          obtain ⟨_, read, same⟩ := Option.map_eq_some_iff.mp loaded
          cases same
          refine ⟨named, ?_, content, rfl, read⟩
          rw [name_of_fileParts parts, String.append_assoc]
          rfl
      · cases loaded
  · rintro ⟨accepted, rfl, content, rfl, read⟩
    simp only [loadEntry, fileParts_json accepted, if_neg accepted, read]
    rfl

/-- What is loaded for an endpoint is what its file in `devices/` holds. -/
theorem lookup_loaded :
    (loadAllDeviceStates fromStr dir fs).lookup endpoint = some state ↔
      endpoint ≠ "" ∧ ∃ content, fs.lookup (stateFile dir endpoint) = some (.file content) ∧
        fromStr content = some state := by
  have member {name : String} {value : Json} :
      (name, value) ∈ (fs.readDir (devicesDir dir)).filterMap (loadEntry fromStr) ↔
        name ≠ "" ∧ ∃ content, fs.lookup (stateFile dir name) = some (.file content) ∧
          fromStr content = some value := by
    rw [List.mem_filterMap]
    constructor
    · rintro ⟨⟨file, entry⟩, listed, loaded⟩
      obtain ⟨accepted, rfl, content, rfl, read⟩ := loadEntry_iff.mp loaded
      exact ⟨accepted, content, mem_readDir.mp listed, read⟩
    · rintro ⟨accepted, content, stored, read⟩
      exact ⟨(name ++ ".json", .file content), mem_readDir.mpr stored,
        loadEntry_iff.mpr ⟨accepted, rfl, content, rfl, read⟩⟩
  rw [loadAllDeviceStates, lookup_foldl_insert, member]
  intro name value value' first second
  obtain ⟨-, content, stored, read⟩ := member.mp first
  obtain ⟨-, content', stored', read'⟩ := member.mp second
  rw [stored] at stored'
  cases stored'
  rw [read] at read'
  exact Option.some.inj read'

/-- Endpoints whose files are the same are loaded the same. -/
private theorem lookup_loaded_congr (same : after.lookup (stateFile dir endpoint) =
      fs.lookup (stateFile dir endpoint)) :
    (loadAllDeviceStates fromStr dir after).lookup endpoint =
      (loadAllDeviceStates fromStr dir fs).lookup endpoint := by
  apply Option.ext
  intro state
  rw [lookup_loaded, lookup_loaded, same]

/-- A name that is loaded is the name of a file. -/
private theorem fileNamed_of_loaded
    (loaded : (loadAllDeviceStates fromStr dir fs).lookup endpoint = some state) :
    FileNamed endpoint := by
  obtain ⟨-, content, stored, -⟩ := lookup_loaded.mp loaded
  refine fileNamed_of_valid (fs.named _ (devicesDir dir) ?_)
  have found : fs.entries.lookup ((endpoint ++ ".json") :: devicesDir dir) = some (.file content) := stored
  rw [found]
  rfl

/-! ## Writing -/

theorem isDir_writeAtomic {path : Location} {data : α} : (writeAtomic fs path data).isDir = fs.isDir := by
  unfold writeAtomic
  cases wrote : fs.write (tmpPath path) data with
  | none => rfl
  | some written =>
    dsimp only
    cases renamed : written.rename (tmpPath path) path with
    | none => exact isDir_write wrote
    | some after => exact (isDir_rename renamed).trans (isDir_write wrote)

/-- A write touches the place of the path and that of the temporary file. -/
theorem lookup_writeAtomic_other {path : Location} {data : α} {place : List String}
    (target : fs.resolve path ≠ some place) (beside : fs.resolve (tmpPath path) ≠ some place) :
    (writeAtomic fs path data).lookup place = fs.lookup place := by
  unfold writeAtomic
  cases wrote : fs.write (tmpPath path) data with
  | none => rfl
  | some written =>
    have same : written.lookup place = fs.lookup place := by
      obtain ⟨tmp, leads, looks⟩ := lookup_write wrote place
      rw [looks, if_neg]
      rintro rfl
      exact beside leads
    dsimp only
    cases renamed : written.rename (tmpPath path) path with
    | none => exact same
    | some after =>
      obtain ⟨source, goal, content, from_, to_, -, looks⟩ := lookup_rename renamed place
      rw [resolve_congr (isDir_write wrote)] at from_ to_
      rw [Option.getD_some, looks, if_neg, if_neg, same]
      · rintro rfl
        exact beside from_
      · rintro rfl
        exact target to_

/-- A write replaces a file, or makes it, where no directory is in the way. -/
theorem lookup_writeAtomic {path : Location} {data : α} {target tmp place : List String}
    (leads : fs.resolve path = some target) (beside : fs.resolve (tmpPath path) = some tmp)
    (free : fs.free target = true) (freeTmp : fs.free tmp = true) :
    (writeAtomic fs path data).lookup place =
      if place = target then some (.file data) else if place = tmp then none else fs.lookup place := by
  obtain ⟨written, put⟩ := Option.isSome_iff_exists.mp ((put_isSome _).trans freeTmp)
  have wrote : fs.write (tmpPath path) data = some written := by
    rw [FileSystem.write, beside]
    exact put
  have dirs := isDir_write wrote
  have held : written.lookup tmp = some (.file data) := by rw [lookup_put put, if_pos rfl]
  have plain : written.isDir tmp = false := by
    rw [dirs]
    exact isDir_of_free freeTmp
  obtain ⟨between, erased⟩ := erase_eq_some plain
  have freed : between.free target = true := by
    rw [free_congr ((isDir_erase erased).trans dirs)]
    exact free
  obtain ⟨after, moved⟩ := Option.isSome_iff_exists.mp
    ((put_isSome (.file data)).trans freed)
  have renamed : written.rename (tmpPath path) path = some after := by
    simp only [FileSystem.rename, resolve_congr dirs, leads, beside, Option.bind_eq_bind,
      Option.bind_some, held, erased, moved]
  rw [writeAtomic, wrote]
  dsimp only
  rw [renamed, Option.getD_some, lookup_put moved, lookup_erase erased, lookup_put put]
  split
  · rfl
  · split <;> rfl

/-! ## Saving and deleting -/

private theorem statePath_eq (named : FileNamed endpoint) :
    statePath dir endpoint = ⟨dir, ["devices", endpoint ++ ".json"]⟩ := by
  refine join_plain fun member => ?_
  rw [String.toList_append, List.mem_append] at member
  exact member.elim named.1 (by decide)

private theorem tmpPath_eq (accepted : endpoint ≠ "") :
    tmpPath ⟨dir, ["devices", endpoint ++ ".json"]⟩ = ⟨dir, ["devices", endpoint ++ ".tmp"]⟩ := by
  have name : withExtension (endpoint ++ ".json") "tmp" = endpoint ++ ".tmp" := by
    rw [withExtension, fileParts_json accepted, String.append_assoc]
    rfl
  simp [tmpPath, name]

/-- Names that end differently. -/
theorem json_ne_tmp (name other : String) : name ++ ".json" ≠ other ++ ".tmp" := by
  intro same
  have ends := congrArg (fun name => name.toList.getLast?) same
  simp only [String.toList_append] at ends
  rw [show ".json".toList = ".jso".toList ++ ['n'] by decide,
    show ".tmp".toList = ".tm".toList ++ ['p'] by decide, ← List.append_assoc, ← List.append_assoc,
    List.getLast?_concat, List.getLast?_concat] at ends
  cases ends

private theorem stateFile_ne_tmpFile (other : String) : stateFile dir other ≠ tmpFile dir endpoint :=
  fun same => json_ne_tmp other endpoint (List.cons.inj same).1

private theorem devicesDir_ne_file (name : String) : name :: devicesDir dir ≠ devicesDir dir := by
  intro same
  have sizes := congrArg List.length same
  simp at sizes

theorem stateFile_ne_devicesDir : stateFile dir endpoint ≠ devicesDir dir :=
  devicesDir_ne_file _

theorem tmpFile_ne_devicesDir : tmpFile dir endpoint ≠ devicesDir dir := devicesDir_ne_file _

theorem stateFile_inj {other : String} (same : stateFile dir other = stateFile dir endpoint) :
    other = endpoint :=
  (String.append_left_inj ".json").mp (List.cons.inj same).1

/-- `devices/` is there afterwards, and all else as it was. -/
theorem createDir_prepared (there : fs.isDir dir = true)
    (devices : fs.lookup (devicesDir dir) = none ∨ fs.lookup (devicesDir dir) = some .dir) :
    ∃ made, fs.createDir (devicesDir dir) = some made ∧ made.lookup (devicesDir dir) = some .dir ∧
      ∀ place, place ≠ devicesDir dir → made.lookup place = fs.lookup place := by
  obtain missing | there_ := devices
  · have named : validName "devices" = true := by decide
    have free : fs.free (devicesDir dir) = true := by
      rw [devicesDir, FileSystem.free, named, there, isDir, ← devicesDir, missing]
      rfl
    obtain ⟨made, put⟩ := Option.isSome_iff_exists.mp ((put_isSome Entry.dir).trans free)
    refine ⟨made, ?_, ?_, fun place apart => ?_⟩
    · rw [createDir, missing]
      exact put
    · rw [lookup_put put, if_pos rfl]
    · rw [lookup_put put, if_neg apart]
  · refine ⟨fs, ?_, there_, fun _ _ => rfl⟩
    rw [createDir, there_]

/-- The file system after a save under a name that fits, where no directory is
in the way. -/
theorem lookup_saved (accepted : endpoint ≠ "") (named : FileNamed endpoint)
    (there : fs.isDir dir = true)
    (devices : fs.lookup (devicesDir dir) = none ∨ fs.lookup (devicesDir dir) = some .dir)
    (file : fs.lookup (stateFile dir endpoint) ≠ some .dir)
    (tmp : fs.lookup (tmpFile dir endpoint) ≠ some .dir) {place : List String}
    (apart : place ≠ devicesDir dir) :
    (saveDeviceState toVecPretty dir endpoint state fs).lookup place =
      if place = stateFile dir endpoint then some (.file (toVecPretty state))
      else if place = tmpFile dir endpoint then none else fs.lookup place := by
  obtain ⟨made, created, devices, kept⟩ := createDir_prepared there devices
  have holds : made.isDir (devicesDir dir) = true := isDir_iff.mpr (Or.inr devices)
  have leads (name : String) : made.resolve ⟨dir, ["devices", name]⟩ = some (name :: devicesDir dir) := by
    rw [resolve_below (by decide), ← devicesDir, if_pos holds]
  have free (name : String) (valid : validName name = true)
      (plain : fs.lookup (name :: devicesDir dir) ≠ some .dir) :
      made.free (name :: devicesDir dir) = true := by
    have other : made.isDir (name :: devicesDir dir) = false := by
      rw [← Bool.not_eq_true, isDir_iff, kept _ (devicesDir_ne_file name)]
      simpa using plain
    rw [FileSystem.free, valid, holds, other]
    rfl
  simp only [saveDeviceState, created, statePath_eq named]
  rw [lookup_writeAtomic (leads _) ((congrArg made.resolve (tmpPath_eq accepted)).trans (leads _))
    (free _ (validName_append named (by decide) (by decide) (by decide)) file)
    (free _ (validName_append named (by decide) (by decide) (by decide)) tmp), kept _ apart]
  rfl

/-- A deletion takes out the file that the path leads to. -/
theorem lookup_deleteDeviceState {place : List String} :
    (deleteDeviceState dir endpoint fs).lookup place =
      if fs.resolve (statePath dir endpoint) = some place ∧ fs.isDir place = false then none
      else fs.lookup place :=
  lookup_removeFile

theorem isDir_deleteDeviceState : (deleteDeviceState dir endpoint fs).isDir = fs.isDir := by
  unfold deleteDeviceState
  cases removed : fs.removeFile (statePath dir endpoint) with
  | none => rfl
  | some after => exact isDir_removeFile removed

/-- The path of a name that fits leads into `devices/`. -/
theorem resolve_statePath (named : FileNamed endpoint) : fs.resolve (statePath dir endpoint) =
    if fs.isDir (devicesDir dir) then some (stateFile dir endpoint) else none := by
  rw [statePath_eq named, resolve_below (by decide)]
  rfl

private theorem lookup_prepared (accepted : endpoint ≠ "") (named : FileNamed endpoint)
    (prepared : Prepared dir fs) {place : List String} (apart : place ≠ devicesDir dir) :
    (saveDeviceState toVecPretty dir endpoint state fs).lookup place =
      if place = stateFile dir endpoint then some (.file (toVecPretty state))
      else if place = tmpFile dir endpoint then none else fs.lookup place :=
  lookup_saved accepted named prepared.there prepared.devices (prepared.files _) (prepared.files _) apart

private theorem saved_of_fileNamed (reads : fromStr (toVecPretty state) = some state)
    (accepted : endpoint ≠ "") (named : FileNamed endpoint) (prepared : Prepared dir fs) :
    Saved fromStr dir endpoint state fs (saveDeviceState toVecPretty dir endpoint state fs) where
  confined place file tmp devices := by
    rw [lookup_prepared accepted named prepared devices, if_neg file, if_neg tmp]
  tidy := by
    rw [lookup_prepared accepted named prepared tmpFile_ne_devicesDir,
      if_neg (stateFile_ne_tmpFile endpoint).symm, if_pos rfl]
  loaded := by
    refine lookup_loaded.mpr ⟨accepted, toVecPretty state, ?_, reads⟩
    rw [lookup_prepared accepted named prepared stateFile_ne_devicesDir, if_pos rfl]
  others other different := by
    apply lookup_loaded_congr
    rw [lookup_prepared accepted named prepared stateFile_ne_devicesDir,
      if_neg fun same => different (stateFile_inj same), if_neg (stateFile_ne_tmpFile other)]

private theorem deleted_of_fileNamed (named : FileNamed endpoint) (prepared : Prepared dir fs) :
    Deleted dir endpoint fs (deleteDeviceState dir endpoint fs) := by
  have after (place : List String) : (deleteDeviceState dir endpoint fs).lookup place =
      if place = stateFile dir endpoint then none else fs.lookup place := by
    rw [lookup_deleteDeviceState, resolve_statePath named]
    by_cases here : place = stateFile dir endpoint
    · subst here
      rw [if_pos rfl]
      have plain : fs.isDir (stateFile dir endpoint) = false := by
        rw [← Bool.not_eq_true, isDir_iff]
        exact fun either => either.elim nofun (prepared.files _)
      by_cases there : fs.isDir (devicesDir dir) = true
      · rw [if_pos there, if_pos ⟨rfl, plain⟩]
      · rw [if_neg there, if_neg nofun]
        exact lookup_outside (Bool.not_eq_true _ ▸ there)
    · rw [if_neg here, if_neg]
      rintro ⟨leads, -⟩
      split at leads
      · exact here (Option.some.inj leads).symm
      · cases leads
  refine ⟨?_, fun place apart => ?_⟩
  · rw [after, if_pos rfl]
  · rw [after, if_neg apart]

/-- For every endpoint that a registration can bring, both operations keep to
its file if and only if the endpoint makes a file name. -/
theorem stateFile_confined_iff {ep : String} (accepted : sgtinFromEp ep ≠ "")
    (prepared : Prepared dir fs) (reads : fromStr (toVecPretty state) = some state) :
    (Saved fromStr dir (sgtinFromEp ep) state fs
        (saveDeviceState toVecPretty dir (sgtinFromEp ep) state fs) ∧
      Deleted dir (sgtinFromEp ep) fs (deleteDeviceState dir (sgtinFromEp ep) fs)) ↔
      FileNamed (sgtinFromEp ep) := by
  constructor
  · rintro ⟨saved, -⟩
    exact fileNamed_of_loaded saved.loaded
  · intro named
    exact ⟨saved_of_fileNamed reads accepted named prepared, deleted_of_fileNamed named prepared⟩

/-- `serde_json` on the empty state. -/
private def printed (_ : Json) : Bytes := [0x7B, 0x7D]

private def parsed (text : Bytes) : Option Json := if text = [0x7B, 0x7D] then some (.obj []) else none

private def stateDir : List String := ["lwm2m"]

/-- A state directory with the registry in it. -/
private def installed : FileSystem Bytes :=
  .ofList [(stateDir, .dir), ("wakaama.json" :: stateDir, .file [0x5B, 0x5D])]

private theorem lookup_installed (place : List String) : installed.lookup place =
    if place = "wakaama.json" :: stateDir then some (.file [0x5B, 0x5D])
    else if place = stateDir then some .dir else none := by
  obtain ⟨made, first⟩ := Option.isSome_iff_exists.mp
    (show ((FileSystem.empty : FileSystem Bytes).put stateDir .dir).isSome by decide)
  obtain ⟨both, second⟩ := Option.isSome_iff_exists.mp
    (show (made.put ("wakaama.json" :: stateDir) (.file [0x5B, 0x5D])).isSome by
      rw [put_isSome, FileSystem.free, FileSystem.isDir, FileSystem.isDir, lookup_put first, lookup_put first]
      decide)
  have whole : installed = both := by
    simp only [installed, ofList, List.foldl_cons, List.foldl_nil, first, second, Option.getD_some]
  rw [whole, lookup_put second, lookup_put first]
  rfl

private theorem installed_prepared : Prepared stateDir installed where
  there := by decide
  devices := Or.inl (by decide)
  files name := by
    rw [lookup_installed, if_neg (by simp [devicesDir, stateDir]), if_neg (by simp [devicesDir, stateDir])]
    nofun

theorem urnEndpoint_confined :
    Saved parsed stateDir (sgtinFromEp "urn:dev:sg:3034F8319C00754000000097") (.obj []) installed
        (saveDeviceState printed stateDir (sgtinFromEp "urn:dev:sg:3034F8319C00754000000097") (.obj [])
          installed) ∧
      Deleted stateDir (sgtinFromEp "urn:dev:sg:3034F8319C00754000000097") installed
        (deleteDeviceState stateDir (sgtinFromEp "urn:dev:sg:3034F8319C00754000000097") installed) :=
  (stateFile_confined_iff (by decide) installed_prepared rfl).mpr (by decide)

/-- `POST /rd?ep=../wakaama` is accepted, and the state of that device replaces
the registry. -/
theorem registry_overwritten :
    endpointOf (Peer.post "rd" "../wakaama") = "../wakaama" ∧
      installed.lookup ("wakaama.json" :: stateDir) = some (.file [0x5B, 0x5D]) ∧
      (saveDeviceState printed stateDir "../wakaama" (.obj []) installed).lookup
        ("wakaama.json" :: stateDir) = some (.file [0x7B, 0x7D]) ∧
      ¬Saved parsed stateDir "../wakaama" (.obj []) installed
        (saveDeviceState printed stateDir "../wakaama" (.obj []) installed) := by
  have replaced : (saveDeviceState printed stateDir "../wakaama" (.obj []) installed).lookup
      ("wakaama.json" :: stateDir) = some (.file [0x7B, 0x7D]) := by decide +kernel
  refine ⟨by decide, by decide, replaced, fun saved => ?_⟩
  have kept := saved.confined ("wakaama.json" :: stateDir) (by decide) (by decide) (by decide)
  rw [replaced] at kept
  exact absurd kept (by decide)

end Lwm2mServer.StateFiles
