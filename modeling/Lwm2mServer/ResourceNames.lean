import Lwm2mServer.Ipc
import Lwm2mServer.ReportedState

/-! The names of resources in events and in commands. An event names a resource
by going from its ids to a definition, in the version of the device or one of
two fallbacks; a command goes back by searching all versions of all objects for
the object's name and then taking the fallbacks again. -/
namespace Lwm2mServer.ResourceNames
open Library Json ReportedState

/-- A definition is in the model. -/
def Defines (ipso : IpsoModel) (id : UInt32) (def_ : ObjectDef) : Prop :=
  ∃ versions version, ipso.objects.lookup id = some versions ∧ versions.lookup version = some def_

/-- What is asked of the XML files. -/
structure WellNamed (ipso : IpsoModel) : Prop where
  objectIds : ∀ id def_, Defines ipso id def_ → id.toNat ≤ 65535
  resourceIds : ∀ id def_, Defines ipso id def_ → ∀ r resource, def_.resources.lookup r = some resource →
    r.toNat ≤ 65535
  slashless : ∀ id def_, Defines ipso id def_ → '/' ∉ def_.name.toList
  objectNames : ∀ id def_ id' def', Defines ipso id def_ → Defines ipso id' def' →
    def_.name = def'.name → id = id'
  resourceNames : ∀ id def_, Defines ipso id def_ → ∀ r resource r' resource',
    def_.resources.lookup r = some resource → def_.resources.lookup r' = some resource' →
    resource.name = resource'.name → r = r'

/-- `build_device_payload` has a value of a resource in its report, and names it
by its definition. -/
def Reports (decode : Bytes → Except String Cbor) (ipso : IpsoModel) (data : Bytes)
    (objVersions : Table UInt32 String) (o i r : UInt32) (object resource : String) : Prop :=
  ∃ records instances resources values objDef resDef, decode data = .ok (.array records) ∧
    (records.foldl readRecord ("", ∅)).2.lookup o = some instances ∧
    instances.lookup i = some resources ∧ resources.lookup r = some values ∧
    ipso.getVersioned o (objVersions.lookup o) = some objDef ∧ objDef.name = object ∧
    objDef.resources.lookup r = some resDef ∧ resDef.name = resource

/-- The path of a resource in a command. -/
def commandPath (object : String) (i : UInt32) (resource : String) : String :=
  object ++ "/" ++ toString i.toNat ++ "/" ++ resource

/-- What a command on a path does. -/
inductive Handled where
  /-- `handle_exclusion`. -/
  | exclusion
  /-- `handle_fota_write`. -/
  | firmware
  | dispatched (addr : SocketAddr) (command : LwM2mCommand)
  | refused

def factoryResetName : String := "device/0/factory_reset"

/-- `handle_execute_path`, with what `execute_args` makes of the payload; a panic
of the registry leaves no result. -/
def handleExecutePath (ipso : IpsoModel) (devices : DeviceRegistry) (path device : String)
    (args : Option Bytes) : Option Handled :=
  if path = factoryResetName then some .exclusion
  else (resolveResource ipso devices path device).map fun
    | some (addr, target) => .dispatched addr (.execute target args)
    | none => .refused

/-- `handle_write_path`, with what `encode_write_payload` makes of the payload. -/
def handleWritePath (ipso : IpsoModel) (devices : DeviceRegistry) (path device : String)
    (value : Option (Bytes × UInt16)) : Option Handled :=
  if path = Ipc.packagePath then some .firmware
  else (resolveResource ipso devices path device).map fun
    | some (addr, target) =>
      match value with
      | some (value, contentFormat) => .dispatched addr (.write target value contentFormat)
      | none => .refused
    | none => .refused

variable {decode : Bytes → Except String Cbor} {ipso : IpsoModel} {data : Bytes}
  {objVersions : Table UInt32 String} {o i r : UInt32} {object resource : String} {ts : Nat}
  {devices : DeviceRegistry} {device : String} {id : UInt32} {dev : Device}

/-- `handle_write_path` as a task: it resolves the path in one step and hands the
write over in the next. -/
theorem resourceWrite_handles {env : Env} {s next : Ipc} {n : Nat} {task : ResourceWrite}
    {addr : SocketAddr} {target : ResourcePath} (held : s.writes.get? n = some task)
    (pc : task.pc = .resolve) (other : task.path ≠ Ipc.packagePath)
    (ran : s.step env ipso (.resourceWrite n) = some next) :
    next.writes.get? n = some { task with pc := .dispatch addr target } ↔
      ∃ value contentFormat, task.value = some (value, contentFormat) ∧
        handleWritePath ipso s.gateway.server.devices task.path task.device task.value =
          some (.dispatched addr (.write target value contentFormat)) := by
  simp only [Ipc.step, Ipc.resourceWriteStep, held, pc, Option.bind_eq_bind, Option.bind_some] at ran
  obtain ⟨found, resolved, ran⟩ := Option.bind_eq_some_iff.mp ran
  cases ran
  rw [Tasks.get?_update _ held, if_pos rfl, handleWritePath, if_neg other, resolved]
  cases found with
  | none => simp
  | some entry =>
    cases value : task.value with
    | none => simp
    | some pair => simp [Prod.ext_iff]

/-! ## From ids to names -/

private theorem defines_getVersioned {version : Option String} {def_ : ObjectDef}
    (found : ipso.getVersioned o version = some def_) : Defines ipso o def_ := by
  obtain ⟨versions, held, found⟩ := Option.bind_eq_some_iff.mp found
  refine ⟨versions, ?_⟩
  rcases Option.or_eq_some_iff.mp found with exact_ | ⟨-, fallback⟩
  · obtain ⟨name, -, stored⟩ := Option.bind_eq_some_iff.mp exact_
    exact ⟨name, held, stored⟩
  · rcases Option.or_eq_some_iff.mp fallback with unversioned | ⟨-, any⟩
    · exact ⟨"", held, unversioned⟩
    · obtain ⟨name, stored⟩ := Table.mem_values.mp (List.mem_of_mem_head? any)
      exact ⟨name, held, stored⟩

private theorem resource_entry {objDef : ObjectDef} {resources : Table UInt32 (List SenmlValue × Bool)}
    {values : List SenmlValue × Bool} (held : resources.lookup r = some values) :
    ((encodeInstance ts objDef resources).child (objDef.resource r).name).isSome := by
  have listed : ((objDef.resource r).name, encodeResource ts (objDef.resource r) values.1 values.2) ∈
      (inOrder resources).map fun entry => ((objDef.resource entry.1).name,
        encodeResource ts (objDef.resource entry.1) entry.2.1 entry.2.2) :=
    List.mem_map.mpr ⟨(r, values), mem_inOrder.mpr held, rfl⟩
  obtain ⟨found, child, -⟩ := child_object listed
  exact Option.isSome_iff_exists.mpr ⟨found, child⟩

/-- The event has the resource under its names. -/
private theorem reported_entry (named : WellNamed ipso)
    (reports : Reports decode ipso data objVersions o i r object resource) :
    ∃ payload, buildDevicePayload decode ipso ts data objVersions = some payload ∧
      (entryAt payload object (toString i.toNat) resource).isSome := by
  obtain ⟨records, instances, resources, values, objDef, resDef, decoded, inside, at_, held, found, rfl,
    defined, rfl⟩ := reports
  let objects := (inOrder (records.foldl readRecord ("", ∅)).2).filterMap fun entry =>
    (ipso.getVersioned entry.1 (objVersions.lookup entry.1)).map fun objDef =>
      (objDef.name, encodeObject ts objDef entry.2)
  have listed : (objDef.name, encodeObject ts objDef instances) ∈ objects :=
    List.mem_filterMap.mpr ⟨(o, instances), mem_inOrder.mpr inside, by dsimp only; rw [found]; rfl⟩
  have built : buildDevicePayload decode ipso ts data objVersions = some (Json.object objects) := by
    rw [buildDevicePayload, decoded]
    exact if_neg (List.ne_nil_of_mem listed)
  obtain ⟨whole, child, member⟩ := child_object listed
  -- another object of the report has another name
  obtain ⟨⟨other, others⟩, inside', made⟩ := List.mem_filterMap.mp member
  obtain ⟨otherDef, found', equal⟩ := Option.map_eq_some_iff.mp made
  obtain ⟨sameName, rfl⟩ := Prod.mk.inj equal
  have sameId := named.objectNames other otherDef o objDef (defines_getVersioned found')
    (defines_getVersioned found) sameName
  subst sameId
  rw [found] at found'
  cases found'
  rw [mem_inOrder.mp inside'] at inside
  cases inside
  have resourceDef : objDef.resource r = resDef := by
    rw [ObjectDef.resource, defined]
    rfl
  refine ⟨_, built, ?_⟩
  rw [entryAt, child, Option.bind_some, instance_entry, at_, Option.map_some, Option.bind_some, ← resourceDef]
  exact resource_entry held

/-! ## From names to ids -/

private theorem parseU16_toString (small : i.toNat ≤ 65535) :
    parseU16 (toString i.toNat) = some i.toUInt16 := by
  rw [parseU16, Nat.toString_eq_ofList_toDigits, parseU32_toDigits]
  exact if_pos (by omega)

/-- Text up to a first slash is the first part. -/
private theorem splitOn_cases (text : List Char) :
    ('/' ∉ text ∧ text.splitOn '/' = [text]) ∨
      ∃ front back, text = front ++ '/' :: back ∧ '/' ∉ front ∧
        text.splitOn '/' = front :: back.splitOn '/' := by
  by_cases slash : '/' ∈ text
  · obtain ⟨front, back, rfl, first⟩ := List.eq_append_cons_of_mem slash
    exact Or.inr ⟨front, back, rfl, first, List.splitOn_append_cons_self_of_not_mem first back⟩
  · exact Or.inl ⟨slash, List.splitOn_eq_singleton slash⟩

private theorem joinText_splitText (text : String) : joinText '/' (splitText '/' text) = text := by
  simp [joinText, splitText, Function.comp_def, List.intercalate_splitOn]

/-- The three parts of a path; slashes beyond the second belong to the last. -/
theorem splitPath_eq_some_iff {path object inst resource : String} :
    splitPath path = some (object, inst, resource) ↔
      path = object ++ "/" ++ inst ++ "/" ++ resource ∧ '/' ∉ object.toList ∧ '/' ∉ inst.toList := by
  have whole (text : String) : ∃ first rest, splitText '/' text = first :: rest :=
    List.exists_cons_of_ne_nil (by simp [splitText])
  constructor
  · intro parts
    rcases splitOn_cases path.toList with ⟨-, single⟩ | ⟨front, behind, text, noSlash, several⟩
    · simp [splitPath, splitText, single] at parts
    · rcases splitOn_cases behind with ⟨-, single⟩ | ⟨middle, back, text', noSlash', several'⟩
      · simp [splitPath, splitText, several, single] at parts
      · obtain ⟨first, rest, pieces⟩ := whole (String.ofList back)
        have joined := joinText_splitText (String.ofList back)
        have split_ : splitText '/' path = String.ofList front :: String.ofList middle :: first :: rest := by
          rw [← pieces, splitText, several, several', splitText, String.toList_ofList]
          rfl
        rw [splitPath, split_] at parts
        rw [pieces] at joined
        dsimp only at parts
        rw [joined] at parts
        cases parts
        refine ⟨String.toList_injective ?_, by simpa using noSlash, by simpa using noSlash'⟩
        simp [text, text']
  · rintro ⟨rfl, object_, inst_⟩
    have text : (object ++ "/" ++ inst ++ "/" ++ resource).toList =
        object.toList ++ '/' :: (inst.toList ++ '/' :: resource.toList) := by
      simp
    obtain ⟨first, rest, pieces⟩ := whole resource
    have split_ : splitText '/' (object ++ "/" ++ inst ++ "/" ++ resource) = object :: inst :: first :: rest := by
      rw [splitText, text, List.splitOn_append_cons_self_of_not_mem object_,
        List.splitOn_append_cons_self_of_not_mem inst_, List.map_cons, List.map_cons, String.ofList_toList,
        String.ofList_toList, ← pieces]
      rfl
    have joined := joinText_splitText resource
    rw [pieces] at joined
    rw [splitPath, split_]
    dsimp only
    rw [joined]

private theorem splitPath_commandPath (slashless : '/' ∉ object.toList) :
    splitPath (commandPath object i resource) = some (object, toString i.toNat, resource) := by
  refine splitPath_eq_some_iff.mpr ⟨rfl, slashless, ?_⟩
  rw [Nat.toString_eq_ofList_toDigits, String.toList_ofList]
  exact slash_notMem_toDigits _

/-- The search over all versions of all objects finds the object. -/
private theorem objectIdByName_defined (named : WellNamed ipso) {def_ : ObjectDef}
    (defines : Defines ipso o def_) : ipso.objectIdByName def_.name = some o := by
  obtain ⟨versions, version, held, stored⟩ := defines
  have found : (ipso.objects.entries.find? fun entry =>
      entry.2.values.any fun other => other.name = def_.name).isSome := by
    rw [List.find?_isSome]
    refine ⟨⟨o, versions⟩, AList.mem_lookup_iff.mp held, List.any_eq_true.mpr ⟨def_, ?_, ?_⟩⟩
    · exact Table.mem_values.mpr ⟨version, stored⟩
    · exact decide_eq_true rfl
  obtain ⟨entry, first⟩ := Option.isSome_iff_exists.mp found
  have matching := List.find?_some first
  obtain ⟨other, inside, sameName⟩ := List.any_eq_true.mp matching
  obtain ⟨otherVersion, there⟩ := Table.mem_values.mp inside
  have member : ipso.objects.lookup entry.1 = some entry.2 :=
    AList.mem_lookup_iff.mpr (List.mem_of_find?_eq_some first)
  have same := named.objectNames entry.1 other o def_ ⟨entry.2, otherVersion, member, there⟩
    ⟨versions, version, held, stored⟩ (of_decide_eq_true sameName)
  rw [IpsoModel.objectIdByName, first, Option.map_some, same]

private theorem resourceIdByName_defined (named : WellNamed ipso) {version : Option String}
    {objDef : ObjectDef} {resDef : ResourceDef} (found : ipso.getVersioned o version = some objDef)
    (defined : objDef.resources.lookup r = some resDef) :
    ipso.resourceIdByName o resDef.name version = some r := by
  have search : (objDef.resources.entries.find? fun entry => entry.2.name = resDef.name).isSome := by
    rw [List.find?_isSome]
    exact ⟨⟨r, resDef⟩, AList.mem_lookup_iff.mp defined, decide_eq_true rfl⟩
  obtain ⟨entry, first⟩ := Option.isSome_iff_exists.mp search
  have sameName := List.find?_some first
  have member : objDef.resources.lookup entry.1 = some entry.2 :=
    AList.mem_lookup_iff.mpr (List.mem_of_find?_eq_some first)
  have same := named.resourceNames o objDef (defines_getVersioned found) entry.1 entry.2 r resDef member
    defined (of_decide_eq_true sameName)
  rw [IpsoModel.resourceIdByName, found, Option.bind_eq_bind, Option.bind_some, first, Option.map_some,
    same]

/-- The path of a reported resource resolves to its ids. -/
private theorem resolve_reported (named : WellNamed ipso)
    (endpoint : devices.byEndpoint.lookup device = some id) (registered : devices.byId.lookup id = some dev)
    (small : i.toNat ≤ 65535)
    (reports : Reports decode ipso data dev.objectVersions o i r object resource) :
    resolveResource ipso devices (commandPath object i resource) device =
      some (some (dev.addr, ⟨o.toUInt16, i.toUInt16, r.toUInt16⟩)) := by
  obtain ⟨-, -, -, -, objDef, resDef, -, -, -, -, found, rfl, defined, rfl⟩ := reports
  have defines := defines_getVersioned found
  have split_ := @splitPath_commandPath i objDef.name resDef.name (named.slashless o objDef defines)
  have known : devices.addrAndIdByEndpoint device = some (some (dev.addr, id, dev.objectVersions)) := by
    simp only [DeviceRegistry.addrAndIdByEndpoint, endpoint, registered, Option.map_some]
  simp only [resolveResource, split_, parseU16_toString small, objectIdByName_defined named defines,
    known, Option.bind_eq_bind, Option.bind_some, Option.pure_def,
    resourceIdByName_defined named found defined]

/-- What the commands on the path of a reported resource do. -/
structure Addressed (ipso : IpsoModel) (devices : DeviceRegistry) (device path : String)
    (addr : SocketAddr) (target : ResourcePath) : Prop where
  resolved : resolveResource ipso devices path device = some (some (addr, target))
  executed : ∀ args, handleExecutePath ipso devices path device args =
    some (if path = factoryResetName then .exclusion else .dispatched addr (.execute target args))
  written : ∀ value contentFormat,
    handleWritePath ipso devices path device (some (value, contentFormat)) =
      some (if path = Ipc.packagePath then .firmware
        else .dispatched addr (.write target value contentFormat))

private theorem addressed_of_resolved {path : String} {addr : SocketAddr} {target : ResourcePath}
    (resolved : resolveResource ipso devices path device = some (some (addr, target))) :
    Addressed ipso devices device path addr target := by
  refine ⟨resolved, fun args => ?_, fun value contentFormat => ?_⟩
  · rw [handleExecutePath, resolved]
    split <;> rfl
  · rw [handleWritePath, resolved]
    split <;> rfl

/-- **A name in an event leads back to the resource in a command.** For every
well-named model and every registered device, whatever versions it has, the ids
survive the way to the names and back. -/
theorem names_agree (named : WellNamed ipso) (endpoint : devices.byEndpoint.lookup device = some id)
    (registered : devices.byId.lookup id = some dev) (small : i.toNat ≤ 65535)
    (reports : Reports decode ipso data dev.objectVersions o i r object resource) :
    (∃ payload, buildDevicePayload decode ipso ts data dev.objectVersions = some payload ∧
      (entryAt payload object (toString i.toNat) resource).isSome) ∧
    ∃ target : ResourcePath, (target.objectId.toNat = o.toNat ∧ target.instanceId.toNat = i.toNat ∧
        target.resourceId.toNat = r.toNat) ∧
      Addressed ipso devices device (commandPath object i resource) dev.addr target := by
  refine ⟨reported_entry named reports, ⟨o.toUInt16, i.toUInt16, r.toUInt16⟩, ?_,
    addressed_of_resolved (resolve_reported named endpoint registered small reports)⟩
  obtain ⟨-, -, -, -, objDef, resDef, -, -, -, -, found, -, defined, -⟩ := reports
  have defines := defines_getVersioned found
  have narrow (n : UInt32) (below : n.toNat ≤ 65535) : n.toUInt16.toNat = n.toNat := by
    rw [UInt32.toNat_toUInt16]
    exact Nat.mod_eq_of_lt (by omega)
  exact ⟨narrow o (named.objectIds o objDef defines), narrow i small,
    narrow r (named.resourceIds o objDef defines r resDef defined)⟩

private def temperature : ObjectDef where
  name := "temperature"
  urn := "urn:oma:lwm2m:ext:3303"
  resources := (∅ : Table UInt32 ResourceDef).insert 5700 ⟨"sensor_value", .float, false⟩

private theorem lookup_single {K V : Type} [DecidableEq K] {key probe : K} {value found : V}
    (held : ((∅ : Table K V).insert key value).lookup probe = some found) :
    probe = key ∧ found = value := by
  rw [Table.lookup_insert_if] at held
  split at held
  · exact ⟨‹_›, (Option.some.inj held).symm⟩
  · cases held

private theorem defines_temperature {def_ : ObjectDef} (defines : Defines temperatureModel o def_) :
    o = 3303 ∧ def_ = temperature := by
  obtain ⟨versions, version, held, stored⟩ := defines
  obtain ⟨rfl, rfl⟩ := lookup_single held
  exact ⟨rfl, (lookup_single stored).2⟩

private theorem temperatureModel_wellNamed : WellNamed temperatureModel where
  objectIds id def_ defines := by
    rw [(defines_temperature defines).1]
    decide
  resourceIds id def_ defines r resource held := by
    rw [(defines_temperature defines).2] at held
    rw [(lookup_single held).1]
    decide
  slashless id def_ defines := by
    rw [(defines_temperature defines).2]
    decide
  objectNames id def_ id' def' first second _ :=
    (defines_temperature first).1.trans (defines_temperature second).1.symm
  resourceNames id def_ defines r resource r' resource' first second _ := by
    rw [(defines_temperature defines).2] at first second
    exact (lookup_single first).1.trans (lookup_single second).1.symm

/-- The temperature of the sensor is addressed by the names it has in events. -/
theorem temperature_named : ∃ target : ResourcePath,
    (target.objectId.toNat = 3303 ∧ target.instanceId.toNat = 0 ∧ target.resourceId.toNat = 5700) ∧
      Addressed temperatureModel oneSensor "sensor" "temperature/0/sensor_value" (.v6 1 5683 0 0) target := by
  have reports : Reports decodeReport temperatureModel wholeReport sensor.objectVersions 3303 0 5700
      "temperature" "sensor_value" :=
    ⟨_, _, _, _, temperature, ⟨"sensor_value", .float, false⟩, rfl, rfl, rfl, rfl, rfl, rfl, rfl, rfl⟩
  exact (@names_agree decodeReport temperatureModel wholeReport 3303 0 5700 "temperature" "sensor_value"
    1700000000 oneSensor "sensor" 1 sensor temperatureModel_wellNamed rfl rfl (by decide) reports).2

end Lwm2mServer.ResourceNames
