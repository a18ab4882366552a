import Lwm2mServer.DevicePayload
import Lwm2mServer.DeviceRecords
import Lwm2mServer.JsonMerge
import Lwm2mServer.RegistryIndexes

/-! The state a device has reported. Reports and states are trees of object,
instance and resource names whose leaves are value objects; `at_merge` says
what a report leaves at a path. Merging goes on into the value objects, so the
last report of a resource is found there alone exactly if all reports of it
used one value key. -/
namespace Lwm2mServer.ReportedState
open Library DeviceRegistry Json

/-! ## Shape of a report -/

/-- The keys a value is reported under. -/
def valueKeys : List String := ["vi", "vf", "vs", "vb", "vt", "vo", "ai", "af", "as", "ab", "ao"]

/-- One value under one key, with its time. -/
def IsValue (v : Json) : Prop :=
  ∃ key ∈ valueKeys, ∃ value ts, value.isObject = false ∧ v = valueObject key value ts

/-- The entry at a path. -/
def entryAt (state : Json) (object inst resource : String) : Option Json :=
  ((state.child object).bind (child inst)).bind (child resource)

/-- Objects down to the resources; an object's URN stands among its
instances. -/
structure Layered (state : Json) : Prop where
  root : state.isObject
  objects : ∀ object o, state.child object = some o → o.isObject
  instances : ∀ object o inst i, state.child object = some o → o.child inst = some i →
    inst ≠ "_urn" → i.isObject

/-- What `build_device_payload` returns. -/
structure Report (p : Json) : Prop extends Layered p where
  ordered : p.Ordered
  orderedObjects : ∀ object o, p.child object = some o → o.Ordered
  orderedInstances : ∀ object o inst i, p.child object = some o → o.child inst = some i →
    inst ≠ "_urn" → i.Ordered
  values : ∀ object inst resource v, inst ≠ "_urn" → entryAt p object inst resource = some v →
    IsValue v

variable {ts : Nat} {resDef : ResourceDef} {objDef : ObjectDef} {p v w state : Json}
  {object inst resource : String}

private theorem isValue_single (type : ResourceType) (value : SenmlValue) :
    IsValue (encodeSingleValue ts type value) := by
  cases value with
  | int i =>
    by_cases time : type = .time
    · exact ⟨"vt", by decide, .int i, ts, rfl, by simp [encodeSingleValue, time]⟩
    · exact ⟨"vi", by decide, .int i, ts, rfl, by simp [encodeSingleValue, time]⟩
  | float f =>
    refine ⟨"vf", by decide, floatJson f, ts, ?_, rfl⟩
    unfold floatJson
    split <;> rfl
  | str s => exact ⟨"vs", by decide, .str s, ts, rfl, rfl⟩
  | bool b => exact ⟨"vb", by decide, .bool b, ts, rfl, rfl⟩
  | bytes b => exact ⟨"vo", by decide, _, ts, rfl, rfl⟩

private theorem isValue_array (type : ResourceType) (values : List SenmlValue) :
    IsValue (encodeArrayValue ts type values) := by
  unfold encodeArrayValue
  split
  · exact ⟨"as", by decide, .arr _, ts, rfl, rfl⟩
  · exact ⟨"ab", by decide, .arr _, ts, rfl, rfl⟩
  · exact ⟨"ao", by decide, .arr _, ts, rfl, rfl⟩
  · split
    · exact ⟨"ai", by decide, .arr _, ts, rfl, rfl⟩
    · exact ⟨"af", by decide, .arr _, ts, rfl, rfl⟩

theorem isValue_encodeResource (values : List SenmlValue) (pathIsArray : Bool) :
    IsValue (encodeResource ts resDef values pathIsArray) := by
  unfold encodeResource
  split
  · exact isValue_single _ _
  · exact isValue_array _ _

private theorem child_encodeInstance {resources : Table UInt32 (List SenmlValue × Bool)}
    (found : (encodeInstance ts objDef resources).child resource = some v) : IsValue v := by
  obtain ⟨entry, _, same⟩ := List.mem_map.mp (mem_of_child_object found)
  obtain ⟨-, rfl⟩ := Prod.mk.inj same
  exact isValue_encodeResource _ _

private theorem child_encodeObject {i : Json}
    {instances : Table UInt32 (Table UInt32 (List SenmlValue × Bool))}
    (found : (encodeObject ts objDef instances).child inst = some i) (named : inst ≠ "_urn") :
    ∃ resources, i = encodeInstance ts objDef resources := by
  rcases List.mem_cons.mp (mem_of_child_object found) with urn | inside
  · exact absurd (Prod.mk.inj urn).1 named
  · obtain ⟨entry, _, same⟩ := List.mem_map.mp inside
    exact ⟨entry.2, (Prod.mk.inj same).2.symm⟩

/-- **What is built is a report.** -/
theorem report_built {decode : Bytes → Except String Cbor} {ipso : IpsoModel} {data : Bytes}
    {objVersions : Table UInt32 String}
    (built : buildDevicePayload decode ipso ts data objVersions = some p) : Report p := by
  obtain ⟨entries, rfl, encoded⟩ : ∃ entries, p = Json.object entries ∧
      ∀ entry ∈ entries, ∃ objDef instances, entry.2 = encodeObject ts objDef instances := by
    unfold buildDevicePayload at built
    split at built
    · dsimp only at built
      split at built
      · cases built
      · cases built
        refine ⟨_, rfl, fun entry member => ?_⟩
        obtain ⟨⟨objId, instances⟩, _, named⟩ := List.mem_filterMap.mp member
        obtain ⟨objDef, _, rfl⟩ := Option.map_eq_some_iff.mp named
        exact ⟨objDef, instances, rfl⟩
    · cases built
  have isObject {object : String} {o : Json} (found : (Json.object entries).child object = some o) :
      ∃ objDef instances, o = encodeObject ts objDef instances :=
    encoded _ (mem_of_child_object found)
  have isInstance {object inst : String} {o i : Json}
      (found : (Json.object entries).child object = some o) (inside : o.child inst = some i)
      (named : inst ≠ "_urn") : ∃ objDef resources, i = encodeInstance ts objDef resources := by
    obtain ⟨objDef, instances, rfl⟩ := isObject found
    exact ⟨objDef, child_encodeObject inside named⟩
  refine ⟨⟨rfl, ?_, ?_⟩, ordered_object entries, ?_, ?_, ?_⟩
  · intro object o found
    obtain ⟨objDef, instances, rfl⟩ := isObject found
    rfl
  · intro object o inst i found inside named
    obtain ⟨objDef, resources, rfl⟩ := isInstance found inside named
    rfl
  · intro object o found
    obtain ⟨objDef, instances, rfl⟩ := isObject found
    exact ordered_object _
  · intro object o inst i found inside named
    obtain ⟨objDef, resources, rfl⟩ := isInstance found inside named
    exact ordered_object _
  · intro object inst resource v named found
    obtain ⟨i, inner, held⟩ := Option.bind_eq_some_iff.mp found
    obtain ⟨o, outer, inside⟩ := Option.bind_eq_some_iff.mp inner
    obtain ⟨objDef, resources, rfl⟩ := isInstance outer inside named
    exact child_encodeInstance held

/-! ## Merging a report -/

theorem isObject_value (value : IsValue v) : v.isObject := by
  obtain ⟨key, _, value, ts, _, rfl⟩ := value
  rfl

theorem ordered_value (value : IsValue v) : v.Ordered := by
  obtain ⟨key, _, value, ts, _, rfl⟩ := value
  exact ordered_object _

/-- What a report leaves at a path. -/
theorem entryAt_merge (layered : Layered state) (report : Report p) (named : inst ≠ "_urn") :
    entryAt (state.merge p) object inst resource =
      ((entryAt p object inst resource).map (mergeEntry (entryAt state object inst resource))).or
        (entryAt state object inst resource) := by
  have first : mergeEntry none = id := funext mergeEntry_none
  unfold entryAt
  rw [child_merge layered.root report.root report.ordered]
  cases reported : p.child object with
  | none => simp
  | some o =>
    cases held : state.child object with
    | none => simp [first]
    | some o' =>
      have objects := And.intro (layered.objects _ _ held) (report.objects _ _ reported)
      simp only [Option.map_some, Option.some_or, Option.bind_some,
        mergeEntry_some objects.1 objects.2,
        child_merge objects.1 objects.2 (report.orderedObjects _ _ reported)]
      cases reported' : o.child inst with
      | none => simp
      | some i =>
        cases held' : o'.child inst with
        | none => simp [first]
        | some i' =>
          have instances := And.intro (layered.instances _ _ _ _ held held' named)
            (report.instances _ _ _ _ reported reported' named)
          simp only [Option.map_some, Option.some_or, Option.bind_some,
            mergeEntry_some instances.1 instances.2,
            child_merge instances.1 instances.2 (report.orderedInstances _ _ _ _ reported reported' named)]

private theorem isObject_mergeEntry {entry : Option Json} (value : v.isObject) :
    (mergeEntry entry v).isObject := by
  unfold mergeEntry
  split
  · rename_i both
    rw [isObject_merge]
    exact (Bool.and_eq_true_iff.mp both).1
  · exact value

theorem layered_merge (layered : Layered state) (report : Report p) : Layered (state.merge p) where
  root := by
    rw [isObject_merge]
    exact layered.root
  objects object o found := by
    rw [child_merge layered.root report.root report.ordered] at found
    cases reported : p.child object with
    | none =>
      rw [reported, Option.map_none, Option.none_or] at found
      exact layered.objects _ _ found
    | some new =>
      rw [reported, Option.map_some, Option.some_or] at found
      exact Option.some.inj found ▸ isObject_mergeEntry (report.objects _ _ reported)
  instances object o inst i found inside named := by
    rw [child_merge layered.root report.root report.ordered] at found
    cases reported : p.child object with
    | none =>
      rw [reported, Option.map_none, Option.none_or] at found
      exact layered.instances _ _ _ _ found inside named
    | some new =>
      rw [reported, Option.map_some, Option.some_or] at found
      cases found
      cases held : state.child object with
      | none =>
        rw [held, mergeEntry_none] at inside
        exact report.instances _ _ _ _ reported inside named
      | some old =>
        rw [held, mergeEntry_some (layered.objects _ _ held) (report.objects _ _ reported),
          child_merge (layered.objects _ _ held) (report.objects _ _ reported)
            (report.orderedObjects _ _ reported)] at inside
        cases reported' : new.child inst with
        | none =>
          rw [reported', Option.map_none, Option.none_or] at inside
          exact layered.instances _ _ _ _ held inside named
        | some i' =>
          rw [reported', Option.map_some, Option.some_or] at inside
          exact Option.some.inj inside ▸
            isObject_mergeEntry (report.instances _ _ _ _ reported reported' named)

theorem layered_empty : Layered (.obj []) where
  root := rfl
  objects _ _ found := by cases found
  instances _ _ _ _ found := by cases found

/-! ## A sequence of values -/

/-- The key of a value object. -/
def valueKey : Json → Option String
  | .obj fields => (fields.map Prod.fst).find? (· ≠ "ts")
  | _ => none

private theorem ne_ts {key : String} (known : key ∈ valueKeys) : key ≠ "ts" := by
  rintro rfl
  exact absurd known (by decide)

/-- The fields of a value object, in their order. -/
private theorem valueObject_eq {key : String} (known : key ∈ valueKeys) (value : Json) (ts : Nat) :
    valueObject key value ts = .obj (if "ts" < key then [("ts", .int ts), (key, value)]
      else [(key, value), ("ts", .int ts)]) := by
  simp [valueObject, Json.object, setField, ne_ts known]

private theorem valueKey_valueObject {key : String} (known : key ∈ valueKeys) (value : Json)
    (ts : Nat) : valueKey (valueObject key value ts) = some key := by
  have other := ne_ts known
  rw [valueObject_eq known]
  split <;> simp [valueKey, other]

theorem child_valueObject {key probe : String} (value : Json) (ts : Nat) :
    (valueObject key value ts).child probe =
      if probe = "ts" then some (.int ts) else if probe = key then some value else none := by
  simp [valueObject, Json.object, child, field_setField, field]

/-- A value replaces one reported under the same key. -/
private theorem mergeEntry_sameKey (old : IsValue v) (new : IsValue w)
    (same : valueKey v = valueKey w) : mergeEntry (some v) w = w := by
  obtain ⟨key, known, value, ts, _, rfl⟩ := old
  obtain ⟨key', known', value', ts', plain, rfl⟩ := new
  rw [valueKey_valueObject known, valueKey_valueObject known'] at same
  cases same
  rw [mergeEntry_some rfl rfl, valueObject_eq known, valueObject_eq known]
  have other := ne_ts known
  have number : (Json.int ts').isObject = false := rfl
  by_cases order : "ts" < key
  · simp [order, merge, mergeFields, setField, field, Ne.symm other, plain, number,
      String.lt_asymm order]
  · simp [order, merge, mergeFields, setField, field, other, plain, number]

/-- A field of either side is there after a merge. -/
private theorem child_mergeEntry {key : String} (object : state.isObject) (value : IsValue v)
    (held : (state.child key).isSome ∨ (v.child key).isSome) :
    ((mergeEntry (some state) v).child key).isSome := by
  rw [mergeEntry_some object (isObject_value value),
    child_merge object (isObject_value value) (ordered_value value)]
  cases reported : v.child key with
  | none =>
    rw [reported] at held
    simpa using held
  | some _ => simp

/-- The entry that values leave, newest first. -/
def entryOf : List Json → Option Json
  | [] => none
  | v :: older => some (mergeEntry (entryOf older) v)

private theorem entryOf_isObject {values : List Json} (all : ∀ v ∈ values, IsValue v)
    (found : entryOf values = some v) : v.isObject := by
  cases values with
  | nil => cases found
  | cons newest older =>
    cases found
    exact isObject_mergeEntry (isObject_value (all newest List.mem_cons_self))

/-- The entry has a field for every key that was ever used. -/
private theorem key_mem_entryOf {values : List Json} (all : ∀ v ∈ values, IsValue v)
    (member : w ∈ values) (found : entryOf values = some v) {key : String}
    (used : valueKey w = some key) : (v.child key).isSome := by
  induction values generalizing v with
  | nil => cases member
  | cons newest older ih =>
    cases found
    have value := all newest List.mem_cons_self
    have rest : ∀ v ∈ older, IsValue v := fun v inside => all v (List.mem_cons_of_mem _ inside)
    rcases List.mem_cons.mp member with rfl | inOlder
    · have here : (w.child key).isSome := by
        obtain ⟨own, known, content, ts, _, rfl⟩ := value
        rw [valueKey_valueObject known] at used
        cases used
        simp [child_valueObject, ne_ts known]
      cases before : entryOf older with
      | none => rwa [mergeEntry_none]
      | some entry => exact child_mergeEntry (entryOf_isObject rest before) value (Or.inr here)
    · cases before : entryOf older with
      | none =>
        cases older with
        | nil => cases inOlder
        | cons _ _ => cases before
      | some entry =>
        exact child_mergeEntry (entryOf_isObject rest before) value (Or.inl (ih rest inOlder before))

/-- The newest value is there alone exactly if all had its key. -/
theorem entryOf_newest_iff {newest : Json} {older : List Json}
    (all : ∀ v ∈ newest :: older, IsValue v) :
    entryOf (newest :: older) = some newest ↔ ∀ w ∈ older, valueKey w = valueKey newest := by
  constructor
  · intro alone w member
    obtain ⟨key, known, value, ts, _, rfl⟩ := all w (List.mem_cons_of_mem _ member)
    have held := key_mem_entryOf all (List.mem_cons_of_mem _ member) alone
      (valueKey_valueObject known value ts)
    obtain ⟨key', known', value', ts', _, rfl⟩ := all newest List.mem_cons_self
    rw [child_valueObject, if_neg (ne_ts known)] at held
    rw [valueKey_valueObject known, valueKey_valueObject known']
    split at held
    · rename_i same
      rw [same]
    · cases held
  · intro same
    induction older generalizing newest with
    | nil => simp [entryOf, mergeEntry_none]
    | cons next rest ih =>
      have values : ∀ v ∈ next :: rest, IsValue v := fun v inside => all v (List.mem_cons_of_mem _ inside)
      have first := same next List.mem_cons_self
      have before := ih values fun w inside =>
        (same w (List.mem_cons_of_mem _ inside)).trans first.symm
      rw [entryOf, before, mergeEntry_sameKey (values next List.mem_cons_self)
        (all newest List.mem_cons_self) first]

/-! ## The reports of a device -/

/-- The value of a resource in the newest report that has it, of reports
newest first. -/
def latest (reports : List Json) (object inst resource : String) : Option Json :=
  reports.findSome? (entryAt · object inst resource)

/-- The state that reports leave of the empty one. -/
def stateOf (reports : List Json) : Json := reports.foldr (fun p state => state.merge p) (.obj [])

theorem layered_stateOf {reports : List Json} (all : ∀ p ∈ reports, Report p) :
    Layered (stateOf reports) := by
  induction reports with
  | nil => exact layered_empty
  | cons p older ih =>
    exact layered_merge (ih fun q inside => all q (List.mem_cons_of_mem _ inside))
      (all p List.mem_cons_self)

theorem entryAt_stateOf {reports : List Json} (all : ∀ p ∈ reports, Report p)
    (named : inst ≠ "_urn") : entryAt (stateOf reports) object inst resource =
      entryOf (reports.filterMap (entryAt · object inst resource)) := by
  induction reports with
  | nil => rfl
  | cons p older ih =>
    have rest : ∀ q ∈ older, Report q := fun q inside => all q (List.mem_cons_of_mem _ inside)
    rw [stateOf, List.foldr_cons]
    change entryAt ((stateOf older).merge p) object inst resource = _
    rw [entryAt_merge (layered_stateOf rest) (all p List.mem_cons_self) named, ih rest]
    cases reported : entryAt p object inst resource with
    | none => simp [reported]
    | some v => simp [reported, entryOf]

private theorem latest_eq_head (reports : List Json) : latest reports object inst resource =
    (reports.filterMap (entryAt · object inst resource)).head? := by
  rw [latest, List.head?_filterMap]

/-- **The last report of a resource is what the state has of it exactly if all
its reports used one value key.** -/
theorem latest_stateOf_iff {reports : List Json} (all : ∀ p ∈ reports, Report p)
    (named : inst ≠ "_urn") :
    (entryAt (stateOf reports) object inst resource = latest reports object inst resource) ↔
      ∀ p ∈ reports, ∀ v, entryAt p object inst resource = some v →
        ∀ q ∈ reports, ∀ w, entryAt q object inst resource = some w → valueKey v = valueKey w := by
  have mem {v : Json} : v ∈ reports.filterMap (entryAt · object inst resource) ↔
      ∃ p ∈ reports, entryAt p object inst resource = some v := List.mem_filterMap
  have values : ∀ v ∈ reports.filterMap (entryAt · object inst resource), IsValue v := by
    intro v member
    obtain ⟨p, inside, found⟩ := mem.mp member
    exact (all p inside).values _ _ _ _ named found
  rw [entryAt_stateOf all named, latest_eq_head]
  generalize reports.filterMap (entryAt · object inst resource) = mentions at mem values
  cases mentions with
  | nil =>
    refine iff_of_true rfl fun p inside v found => ?_
    cases mem.mpr ⟨p, inside, found⟩
  | cons newest older =>
    rw [List.head?_cons, entryOf_newest_iff values]
    have allNewest : (∀ w ∈ older, valueKey w = valueKey newest) ↔
        ∀ w ∈ newest :: older, valueKey w = valueKey newest := by simp
    rw [allNewest]
    constructor
    · intro same p inside v found q inside' w found'
      exact (same v (mem.mpr ⟨p, inside, found⟩)).trans (same w (mem.mpr ⟨q, inside', found'⟩)).symm
    · intro same w member
      obtain ⟨q, inside', found'⟩ := mem.mp member
      obtain ⟨p, inside, found⟩ := mem.mp (List.mem_cons_self (a := newest) (l := older))
      exact same q inside' w found' p inside newest found

/-- Calls that leave alone what device `id` has reported. A new device takes a
held id only after the id counter wrapped. -/
def LeavesState (r : DeviceRegistry) (id : UInt32) : Op → Prop
  | .mergeDeviceStateByAddr addr _ => r.byAddr.lookup addr ≠ some id
  | .restoreDeviceState endpoint _ => r.byEndpoint.lookup endpoint ≠ some id
  | .register _ endpoint _ _ => r.byEndpoint.lookup endpoint = none → r.nextId ≠ id
  | _ => True

/-- Device `id` has pushed these reports, newest first, since it was registered
with an empty state. -/
inductive Pushed (id : UInt32) : DeviceRegistry → List Json → Prop where
  | registered {r : DeviceRegistry} {dev : Device} (held : r.byId.lookup id = some dev)
      (nothing : dev.state = .obj []) : Pushed id r []
  | push {r r' : DeviceRegistry} {reports : List Json} {addr : SocketAddr} {p : Json}
      {decode : Bytes → Except String Cbor} {ipso : IpsoModel} {ts : Nat} {data : Bytes}
      {versions : Table UInt32 String} (before : Pushed id r reports)
      (index : r.byAddr.lookup addr = some id)
      (built : buildDevicePayload decode ipso ts data versions = some p)
      (ran : r.apply (.mergeDeviceStateByAddr addr p) = some r') : Pushed id r' (p :: reports)
  | other {r r' : DeviceRegistry} {reports : List Json} {op : Op} (before : Pushed id r reports)
      (leaves : LeavesState r id op) (ran : r.apply op = some r') : Pushed id r' reports

variable {r r' : DeviceRegistry} {id : UInt32} {dev : Device} {reports : List Json}

open DeviceRecords in
private theorem state_leaves {op : Op} (leaves : LeavesState r id op) (ran : r.apply op = some r')
    (held : r'.byId.lookup id = some dev) :
    ∃ before, r.byId.lookup id = some before ∧ dev.state = before.state := by
  rcases apply_record ran held with ⟨before, stored, record⟩ | ⟨now, endpoint, addr, reg, rfl, unknown, new, _⟩
  · have same : (recordAfter r id (recordOf before) op).state = before.state := by
      cases op with
      | register now endpoint addr reg =>
        simp only [recordAfter]
        split <;> rfl
      | renewRegistration now addr newLifetime =>
        simp only [recordAfter]
        split <;> rfl
      | mergeDeviceStateByAddr addr newState =>
        simp only [recordAfter]
        rw [if_neg leaves]
        rfl
      | restoreDeviceState endpoint state =>
        simp only [recordAfter]
        rw [if_neg leaves]
        rfl
      | _ => rfl
    exact ⟨before, stored, (congrArg Record.state record).trans same⟩
  · exact absurd new.symm (leaves unknown)

/-- The state of a device is what its reports leave. -/
theorem state_pushed (pushed : Pushed id r reports) : (∀ p ∈ reports, Report p) ∧
    ∀ dev, r.byId.lookup id = some dev → dev.state = stateOf reports := by
  induction pushed with
  | registered held nothing =>
    refine ⟨fun p none => (by cases none), fun dev found => ?_⟩
    rw [held] at found
    exact Option.some.inj found ▸ nothing
  | push before index built ran ih =>
    obtain ⟨all, same⟩ := ih
    refine ⟨List.forall_mem_cons.mpr ⟨report_built built, all⟩, fun dev found => ?_⟩
    rcases DeviceRecords.apply_record ran found with ⟨old, stored, record⟩ | ⟨_, _, _, _, other, _⟩
    · have merged := congrArg DeviceRecords.Record.state record
      simp only [DeviceRecords.recordAfter, index, if_true] at merged
      exact merged.trans (congrArg (fun state => Json.merge state _) (same old stored))
    · cases other
  | other before leaves ran ih =>
    obtain ⟨all, same⟩ := ih
    refine ⟨all, fun dev found => ?_⟩
    obtain ⟨old, stored, kept⟩ := state_leaves leaves ran found
    exact kept.trans (same old stored)

theorem instance_ne_urn (inst : UInt32) : toString inst.toNat ≠ "_urn" := by
  intro same
  have digits : '_' ∈ Nat.toDigits 10 inst.toNat := by
    have text : Nat.toDigits 10 inst.toNat = "_urn".toList := by
      rw [← same]
      simp
    rw [text]
    decide
  exact absurd (Nat.isDigit_of_mem_toDigits (by decide) (by decide) digits) (by decide)

theorem toString_inj {n m : UInt32} (same : toString n.toNat = toString m.toNat) : n = m := by
  have texts : String.ofList (Nat.toDigits 10 n.toNat) = String.ofList (Nat.toDigits 10 m.toNat) := by
    rw [← Nat.toString_eq_ofList_toDigits, ← Nat.toString_eq_ofList_toDigits, same]
  have parsed := parseU32_toDigits n
  rw [texts, parseU32_toDigits] at parsed
  exact (Option.some.inj parsed).symm

/-- The instances of an object go by their ids. -/
theorem instance_entry {i : UInt32}
    (instances : Table UInt32 (Table UInt32 (List SenmlValue × Bool))) :
    (encodeObject ts objDef instances).child (toString i.toNat) =
      (instances.lookup i).map (encodeInstance ts objDef) := by
  let entries := ("_urn", Json.str objDef.urn) :: (inOrder instances).map fun entry =>
    (toString entry.1.toNat, encodeInstance ts objDef entry.2)
  have only {found : Json} (member : (toString i.toNat, found) ∈ entries) :
      (instances.lookup i).map (encodeInstance ts objDef) = some found := by
    rcases List.mem_cons.mp member with urn | member
    · exact absurd (Prod.mk.inj urn).1 (instance_ne_urn i)
    · obtain ⟨⟨other, resources⟩, inside, equal⟩ := List.mem_map.mp member
      obtain ⟨sameName, rfl⟩ := Prod.mk.inj equal
      have sameId := toString_inj sameName
      subst sameId
      rw [mem_inOrder.mp inside, Option.map_some]
  cases held : instances.lookup i with
  | some resources =>
    have listed : (toString i.toNat, encodeInstance ts objDef resources) ∈ entries :=
      List.mem_cons_of_mem _ (List.mem_map.mpr ⟨(i, resources), mem_inOrder.mpr held, rfl⟩)
    obtain ⟨found, child, member⟩ := child_object listed
    rw [← held, only member]
    exact child
  | none =>
    cases child : (encodeObject ts objDef instances).child (toString i.toNat) with
    | none => rfl
    | some found =>
      have absent := only (mem_of_child_object child)
      rw [held] at absent
      cases absent

/-- The state has of a resource what the newest report of it had: one value
with its time, or nothing if there was none. -/
def Latest (state : Json) (reports : List Json) (object : String) (inst : UInt32)
    (resource : String) : Prop :=
  entryAt state object (toString inst.toNat) resource =
      latest reports object (toString inst.toNat) resource ∧
    ∀ v, entryAt state object (toString inst.toNat) resource = some v → IsValue v

/-- All reports of a resource used the same value key. -/
def OneKey (reports : List Json) (object : String) (inst : UInt32) (resource : String) : Prop :=
  ∀ p ∈ reports, ∀ v, entryAt p object (toString inst.toNat) resource = some v →
    ∀ q ∈ reports, ∀ w, entryAt q object (toString inst.toNat) resource = some w →
      valueKey v = valueKey w

/-- **The latest value of a resource wins exactly if it was always reported
under one value key**, whatever else happens to the registry in between. -/
theorem latest_wins_iff (pushed : Pushed id r reports) (held : r.byId.lookup id = some dev)
    (object : String) (inst : UInt32) (resource : String) :
    Latest dev.state reports object inst resource ↔ OneKey reports object inst resource := by
  obtain ⟨all, same⟩ := state_pushed pushed
  have named := instance_ne_urn inst
  rw [Latest, same dev held, latest_stateOf_iff all named]
  refine and_iff_left_of_imp fun one v found => ?_
  rw [(latest_stateOf_iff all named).mpr one] at found
  obtain ⟨p, inside, reported⟩ := List.exists_of_findSome?_eq_some found
  exact (all p inside).values _ _ _ _ named reported

/-! ## Two encodings of one reading -/

/-- `/3303/0/5700` reported as a whole number of degrees. -/
def wholeReport : Bytes :=
  [0x81, 0xa3, 0x21, 0x68, 0x2f, 0x33, 0x33, 0x30, 0x33, 0x2f, 0x30, 0x2f, 0x00, 0x64, 0x35, 0x37,
    0x30, 0x30, 0x02, 0x15]

/-- The same resource reported as 21.5 degrees. -/
def halfReport : Bytes :=
  [0x81, 0xa3, 0x21, 0x68, 0x2f, 0x33, 0x33, 0x30, 0x33, 0x2f, 0x30, 0x2f, 0x00, 0x64, 0x35, 0x37,
    0x30, 0x30, 0x02, 0xfb, 0x40, 0x35, 0x80, 0x00, 0x00, 0x00, 0x00, 0x00]

/-- The resource reported as 22 degrees, and the unit of the sensor. -/
def warmerReport : Bytes :=
  [0x81, 0xa3, 0x21, 0x68, 0x2f, 0x33, 0x33, 0x30, 0x33, 0x2f, 0x30, 0x2f, 0x00, 0x64, 0x35, 0x37,
    0x30, 0x30, 0x02, 0x16]

def unitReport : Bytes :=
  [0x81, 0xa3, 0x21, 0x68, 0x2f, 0x33, 0x33, 0x30, 0x33, 0x2f, 0x30, 0x2f, 0x00, 0x64, 0x35, 0x37,
    0x30, 0x31, 0x03, 0x63, 0x43, 0x65, 0x6c]

/-- What `ciborium` decodes these reports to. -/
def decodeReport (data : Bytes) : Except String Cbor :=
  let record (name : String) (key : Int) (value : Cbor) : Cbor :=
    .array [.map [(.integer (-2), .text "/3303/0/"), (.integer 0, .text name), (.integer key, value)]]
  if data = wholeReport then .ok (record "5700" 2 (.integer 21))
  else if data = halfReport then .ok (record "5700" 2 (.float 0x4035800000000000))
  else if data = warmerReport then .ok (record "5700" 2 (.integer 22))
  else if data = unitReport then .ok (record "5701" 3 (.text "Cel"))
  else .error "unexpected"

/-- A model with the temperature object. -/
def temperatureModel : IpsoModel where
  objects := (∅ : Table UInt32 (Table String ObjectDef)).insert 3303
    ((∅ : Table String ObjectDef).insert ""
      { name := "temperature"
        urn := "urn:oma:lwm2m:ext:3303"
        resources := (∅ : Table UInt32 ResourceDef).insert 5700 ⟨"sensor_value", .float, false⟩ })

/-- The payload with one reading of the temperature. -/
def temperatureReport (reading : Json) : Json :=
  .obj [("temperature", .obj [("0", .obj [("sensor_value", reading)]),
    ("_urn", .str "urn:oma:lwm2m:ext:3303")])]

/-- A sensor that registered with an empty state. -/
def sensor : Device := .new 1 "sensor" (.v6 1 5683 0 0) ⟨3600, [], ∅, "1.1", "UQ"⟩ 0

def oneSensor : DeviceRegistry :=
  { DeviceRegistry.new with
    byId := DeviceRegistry.new.byId.insert 1 sensor
    byEndpoint := DeviceRegistry.new.byEndpoint.insert "sensor" 1
    byAddr := DeviceRegistry.new.byAddr.insert (.v6 1 5683 0 0) 1
    nextId := 2 }

def wholeDegrees : Json := temperatureReport (.obj [("ts", .int 1700000000), ("vi", .int 21)])

def halfDegrees : Json :=
  temperatureReport (.obj [("ts", .int 1700000060), ("vf", .float 0x4035800000000000)])

/-- The sensor with a state. -/
def sensorWith (state : Json) : DeviceRegistry := oneSensor.putDevice 1 { sensor with state }

private theorem built_whole :
    buildDevicePayload decodeReport temperatureModel 1700000000 wholeReport ∅ = some wholeDegrees := by
  rfl

private theorem built_half :
    buildDevicePayload decodeReport temperatureModel 1700000060 halfReport ∅ = some halfDegrees := by
  rfl

private theorem pushed_whole :
    Pushed 1 (sensorWith (stateOf [wholeDegrees])) [wholeDegrees] := by
  have registered : Pushed 1 oneSensor [] := .registered rfl rfl
  have ran : oneSensor.apply (.mergeDeviceStateByAddr (.v6 1 5683 0 0) wholeDegrees) =
      some (sensorWith (stateOf [wholeDegrees])) := rfl
  exact registered.push rfl built_whole ran

private theorem pushed_both : Pushed 1 (sensorWith (stateOf [halfDegrees, wholeDegrees]))
    [halfDegrees, wholeDegrees] := by
  have ran : (sensorWith (stateOf [wholeDegrees])).apply
      (.mergeDeviceStateByAddr (.v6 1 5683 0 0) halfDegrees) =
      some (sensorWith (stateOf [halfDegrees, wholeDegrees])) := rfl
  exact pushed_whole.push rfl built_half ran

/-- The temperature object with the unit of its sensor. -/
def unitModel : IpsoModel where
  objects := (∅ : Table UInt32 (Table String ObjectDef)).insert 3303
    ((∅ : Table String ObjectDef).insert ""
      { name := "temperature"
        urn := "urn:oma:lwm2m:ext:3303"
        resources := ((∅ : Table UInt32 ResourceDef).insert 5700 ⟨"sensor_value", .float, false⟩).insert
          5701 ⟨"sensor_units", .string, false⟩ })

def warmerDegrees : Json := temperatureReport (.obj [("ts", .int 1700000060), ("vi", .int 22)])

def unitOnly : Json :=
  .obj [("temperature", .obj [("0", .obj [("sensor_units",
    .obj [("ts", .int 1700000030), ("vs", .str "Cel")])]), ("_urn", .str "urn:oma:lwm2m:ext:3303")])]

private theorem built_warmer :
    buildDevicePayload decodeReport unitModel 1700000060 warmerReport ∅ = some warmerDegrees := by
  rfl

private theorem built_unit :
    buildDevicePayload decodeReport unitModel 1700000030 unitReport ∅ = some unitOnly := by
  rfl

private theorem pushed_warmer : ∃ r dev, Pushed 1 r [warmerDegrees, unitOnly, wholeDegrees] ∧
    r.byId.lookup 1 = some dev ∧ dev.lifetime = 300 := by
  -- between the two readings the sensor reports its unit and renews its registration
  let addr : SocketAddr := .v6 1 5683 0 0
  let reporting : DeviceRegistry := sensorWith (stateOf [unitOnly, wholeDegrees])
  let renewed : DeviceRegistry := reporting.renewRegistration 1800000000000 addr (some 300)
  have first : (sensorWith (stateOf [wholeDegrees])).apply (.mergeDeviceStateByAddr addr unitOnly) =
      some reporting := rfl
  have renews : reporting.apply (.renewRegistration 1800000000000 addr (some 300)) = some renewed := rfl
  have last : renewed.apply (.mergeDeviceStateByAddr addr warmerDegrees) =
      some (renewed.putDevice 1 { sensor with
        state := stateOf [warmerDegrees, unitOnly, wholeDegrees]
        lastRegisteredAt := 1800000000000
        lifetime := 300 }) := rfl
  have before : Pushed 1 renewed [unitOnly, wholeDegrees] := by
    refine (pushed_whole.push rfl built_unit first).other ?_ renews
    trivial
  exact ⟨_, _, before.push rfl built_warmer last, rfl, rfl⟩

/-- A reading is the last one while the sensor keeps to one encoding. -/
theorem latest_wins_sensor : ∃ r dev, Pushed 1 r [warmerDegrees, unitOnly, wholeDegrees] ∧
    r.byId.lookup 1 = some dev ∧
    latest [warmerDegrees, unitOnly, wholeDegrees] "temperature" "0" "sensor_value" =
      some (.obj [("ts", .int 1700000060), ("vi", .int 22)]) ∧
    Latest dev.state [warmerDegrees, unitOnly, wholeDegrees] "temperature" 0 "sensor_value" := by
  obtain ⟨r, dev, pushed, held, -⟩ := pushed_warmer
  refine ⟨r, dev, pushed, held, rfl, (latest_wins_iff pushed held _ _ _).mpr ?_⟩
  have whole {p : Json} (inside : p ∈ [warmerDegrees, unitOnly, wholeDegrees]) {v : Json}
      (found : entryAt p "temperature" (toString (0 : UInt32).toNat) "sensor_value" = some v) :
      valueKey v = some "vi" := by
    simp only [List.mem_cons, List.not_mem_nil, or_false] at inside
    rcases inside with rfl | rfl | rfl
    · cases found
      rfl
    · cases found
    · cases found
      rfl
  exact fun p inside v found q inside' w found' => (whole inside found).trans (whole inside' found').symm

/-- Reported as 21 and then as 21.5 degrees, the temperature is both. -/
theorem mixed_reports : ∃ r reports dev, Pushed 1 r reports ∧ r.byId.lookup 1 = some dev ∧
    entryAt dev.state "temperature" (toString (0 : UInt32).toNat) "sensor_value" =
      some (.obj [("ts", .int 1700000060), ("vf", .float 0x4035800000000000), ("vi", .int 21)]) ∧
    ¬ Latest dev.state reports "temperature" 0 "sensor_value" := by
  refine ⟨_, _, { sensor with state := stateOf [halfDegrees, wholeDegrees] }, pushed_both, rfl, rfl, ?_⟩
  rintro ⟨same, _⟩
  have newest : latest [halfDegrees, wholeDegrees] "temperature" (toString (0 : UInt32).toNat)
      "sensor_value" = some (.obj [("ts", .int 1700000060), ("vf", .float 0x4035800000000000)]) := rfl
  rw [newest] at same
  cases same

end Lwm2mServer.ReportedState
