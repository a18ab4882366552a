import Lwm2mServer.ReportedState
import Lwm2mServer.SenmlRecords

/-! The encoding half of `build_device_payload`: what becomes of the values that
a report has for a resource. `Shows` says that a value object has them all, one
element for each, and `delivered_iff_kept` when the event has such an object
under the names of the resource. -/
namespace Lwm2mServer.ReportedValues
open Library Json ReportedState SenmlRecords

/-! ## Base64 -/

/-- The value of a digit. -/
def sextet (digit : Char) : Nat :=
  "ABCDEFGHIJKLMNOPQRSTUVWXYZabcdefghijklmnopqrstuvwxyz0123456789+/".toList.idxOf digit % 64

/-- The bytes a text in base64 stands for. -/
def base64Bytes : List Char → Bytes
  | a :: b :: c :: d :: rest =>
    let n := ((sextet a * 64 + sextet b) * 64 + sextet c) * 64 + sextet d
    let group := [UInt8.ofNat (n / 65536), UInt8.ofNat (n / 256), UInt8.ofNat n]
    group.take (if c = '=' then 1 else if d = '=' then 2 else 3) ++ base64Bytes rest
  | _ => []

private theorem sextet_digit {n : Nat} (small : n < 64) :
    sextet (base64Digit n) = n ∧ base64Digit n ≠ '=' := by
  have all : ∀ n < 64, sextet (base64Digit n) = n ∧ base64Digit n ≠ '=' := by decide +kernel
  exact all n small

private theorem byte_eq {n : Nat} {byte : UInt8} (low : n % 256 = byte.toNat) : UInt8.ofNat n = byte := by
  rw [← UInt8.toNat_inj, UInt8.toNat_ofNat', low]

theorem base64Bytes_base64Chars (bytes : Bytes) : base64Bytes (base64Chars bytes) = bytes := by
  have pad : sextet '=' = 0 := by decide
  induction bytes using base64Chars.induct with
  | case1 => rfl
  | case2 a =>
    have bound := a.toNat_lt
    obtain ⟨first, -⟩ := @sextet_digit (a.toNat * 16 / 64) (by omega)
    obtain ⟨second, -⟩ := @sextet_digit (a.toNat * 16 % 64) (by omega)
    simp only [base64Chars, base64Bytes, first, second, pad, if_pos]
    rw [@byte_eq _ a (by omega)]
    rfl
  | case3 a b =>
    have bounds := And.intro a.toNat_lt b.toNat_lt
    obtain ⟨first, -⟩ := @sextet_digit ((a.toNat * 256 + b.toNat) * 4 / 4096) (by omega)
    obtain ⟨second, -⟩ := @sextet_digit ((a.toNat * 256 + b.toNat) * 4 / 64 % 64) (by omega)
    obtain ⟨third, digit⟩ := @sextet_digit ((a.toNat * 256 + b.toNat) * 4 % 64) (by omega)
    simp only [base64Chars, base64Bytes, first, second, third, pad, if_neg digit, if_pos]
    rw [@byte_eq _ a (by omega), @byte_eq _ b (by omega)]
    rfl
  | case4 a b c rest ih =>
    have bounds := And.intro a.toNat_lt (And.intro b.toNat_lt c.toNat_lt)
    let n := (a.toNat * 256 + b.toNat) * 256 + c.toNat
    obtain ⟨first, -⟩ := @sextet_digit (n / 262144) (by omega)
    obtain ⟨second, -⟩ := @sextet_digit (n / 4096 % 64) (by omega)
    obtain ⟨third, digit⟩ := @sextet_digit (n / 64 % 64) (by omega)
    obtain ⟨fourth, digit'⟩ := @sextet_digit (n % 64) (by omega)
    have whole : ((n / 262144 * 64 + n / 4096 % 64) * 64 + n / 64 % 64) * 64 + n % 64 = n := by omega
    rw [base64Chars, base64Bytes, if_neg digit, if_neg digit', first, second, third, fourth, whole, ih]
    rw [@byte_eq _ a (by omega), @byte_eq _ b (by omega), @byte_eq _ c (by omega)]
    rfl

/-- A text in base64 stands for one byte string. -/
theorem base64Encode_injective : Function.Injective base64Encode := fun bytes others same => by
  have texts := String.ofList_injective same
  rw [← base64Bytes_base64Chars bytes, texts, base64Bytes_base64Chars]

/-! ## What a value object shows -/

/-- A value in JSON. -/
def element : SenmlValue → Json
  | .int i => .int i
  | .float f => floatJson f
  | .str s => .str s
  | .bool b => .bool b
  | .bytes b => .str (base64Encode b)

/-- The keys for one value; a time is an integer. -/
def singleKeys : SenmlValue → List String
  | .int _ => ["vi", "vt"]
  | .float _ => ["vf"]
  | .str _ => ["vs"]
  | .bool _ => ["vb"]
  | .bytes _ => ["vo"]

/-- The key for an array of values. -/
def arrayKey : SenmlValue → String
  | .int _ => "ai"
  | .float _ => "af"
  | .str _ => "as"
  | .bool _ => "ab"
  | .bytes _ => "ao"

/-- A value object has one element for each of some values, in order, under a
key that says what kind they are. -/
inductive Shows : Json → List SenmlValue → Prop
  | single {value : SenmlValue} {key : String} (ts : Nat) (kind : key ∈ singleKeys value) :
    Shows (valueObject key (element value) ts) [value]
  | array {values : List SenmlValue} {key : String} (ts : Nat)
    (kind : ∀ value ∈ values, arrayKey value = key) :
    Shows (valueObject key (.arr (values.map element)) ts) values

def NoFloat : SenmlValue → Prop
  | .float _ => False
  | _ => True

/-- The key of a declared type's array form; a type without one of its own is a
number. -/
def formKey : ResourceType → String
  | .string => "as"
  | .boolean => "ab"
  | .opaqueBytes => "ao"
  | _ => "ai"

def takes (type : ResourceType) (value : SenmlValue) : Bool := arrayKey value = formKey type

/-- Types whose array form leaves other values out. -/
def leavesOut (type : ResourceType) : Bool := type = .string ∨ type = .boolean ∨ type = .opaqueBytes

/-- What the value object of a resource shows of its values; none where they
become doubles. -/
def shown (resDef : ResourceDef) (isArray : Bool) (values : List SenmlValue) :
    Option (List SenmlValue) :=
  if (isArray || resDef.multipleInstances) = false ∧ values.length = 1 then some (values.map narrow)
  else if leavesOut resDef.resourceType ∨ values.all (takes resDef.resourceType) then
    some ((values.filter (takes resDef.resourceType)).map narrow)
  else none

/-- The values fit, and the form they take is made for them. -/
def Kept (resDef : ResourceDef) (isArray : Bool) (values : List SenmlValue) : Prop :=
  (∀ value ∈ values, Fits value) ∧
    ((isArray || resDef.multipleInstances) = false ∧ values.length = 1 ∨
      ∀ value ∈ values, takes resDef.resourceType value)

/-- The resource whose value object is under the names of a path: the last one of
its name that was reported, in the last object of its name. -/
structure Stands (ipso : IpsoModel) (objVersions : Table UInt32 String) (records : List Cbor)
    (objectName : String) (inst : UInt32) (resourceName : String) (object : UInt32)
    (objDef : ObjectDef) (resource : UInt32) : Prop where
  known : ipso.getVersioned object (objVersions.lookup object) = some objDef
  objectNamed : objDef.name = objectName
  lastObject : ∀ x ∈ reports records, ∀ other,
    ipso.getVersioned x.object (objVersions.lookup x.object) = some other →
    other.name = objectName → x.object ≤ object
  reported : reportsFor object inst resource records ≠ []
  resourceNamed : (objDef.resource resource).name = resourceName
  lastResource : ∀ x ∈ reports records, x.object = object → x.inst = inst →
    (objDef.resource x.resource).name = resourceName → x.resource ≤ resource

/-- The values reported for a resource. -/
def valuesFor (object inst resource : UInt32) (records : List Cbor) : List SenmlValue :=
  (reportsFor object inst resource records).map (·.value)

/-- A name went on to a resource instance. -/
def arrayFor (object inst resource : UInt32) (records : List Cbor) : Bool :=
  (reportsFor object inst resource records).any (·.isArray)

/-- No other resource has taken the names of this one. -/
def Unreplaced (ipso : IpsoModel) (objVersions : Table UInt32 String) (records : List Cbor)
    (object : UInt32) (objDef : ObjectDef) (inst resource : UInt32) : Prop :=
  Stands ipso objVersions records objDef.name inst (objDef.resource resource).name object objDef resource

/-- The payload has all values reported for a resource under its names. -/
def Delivered (payload : Json) (records : List Cbor) (object : UInt32) (objDef : ObjectDef)
    (inst resource : UInt32) : Prop :=
  ∃ json, entryAt payload objDef.name (toString inst.toNat) (objDef.resource resource).name = some json ∧
    Shows json (valuesFor object inst resource records)

variable {ts : Nat} {resDef : ResourceDef} {type : ResourceType} {isArray : Bool}
  {values held : List SenmlValue} {value : SenmlValue} {json : Json}
  {decode : Bytes → Except String Cbor} {ipso : IpsoModel} {data : Bytes}
  {objVersions : Table UInt32 String} {records : List Cbor} {object inst resource : UInt32}
  {objectName resourceName : String} {objDef : ObjectDef}

private theorem map_narrow_eq_iff : values.map narrow = values ↔ ∀ value ∈ values, Fits value := by
  have each := @List.map_inj_left _ _ values narrow id
  rw [List.map_id] at each
  exact each.trans (forall₂_congr fun value _ => narrow_eq_iff value)

/-- A resource shows its own values exactly if they are kept. -/
theorem shown_eq_iff_kept : shown resDef isArray values = some values ↔ Kept resDef isArray values := by
  unfold shown Kept
  split
  · rename_i alone
    rw [Option.some_inj, map_narrow_eq_iff, and_iff_left (Or.inl alone)]
  · rename_i together
    rw [or_iff_right together]
    constructor
    · intro same
      split at same
      · have whole := Option.some.inj same
        have all : ∀ value ∈ values, takes resDef.resourceType value := by
          rw [← List.length_filter_eq_length_iff, ← List.length_map (f := narrow), whole]
        rw [List.filter_eq_self.mpr all] at whole
        exact ⟨map_narrow_eq_iff.mp whole, all⟩
      · cases same
    · rintro ⟨fit, all⟩
      rw [if_pos (Or.inr (List.all_eq_true.mpr all)), List.filter_eq_self.mpr all,
        map_narrow_eq_iff.mpr fit]

/-! ## Encoding -/

private theorem valueObject_inj {key key' : String} {content content' : Json} {ts' : Nat}
    (plain : key ≠ "ts") (same : valueObject key content ts = valueObject key' content' ts') :
    key = key' ∧ content = content' := by
  have child := @child_valueObject key key content ts
  rw [same, child_valueObject, if_neg plain, if_neg plain, if_pos rfl] at child
  split at child
  · exact ⟨‹_›, (Option.some.inj child).symm⟩
  · cases child

private theorem singleKeys_ne_ts {key : String} (kind : key ∈ singleKeys value) : key ≠ "ts" := by
  rintro rfl
  cases value <;> simp [singleKeys] at kind

private theorem element_ne_arr (value : SenmlValue) (items : List Json) : element value ≠ .arr items := by
  cases value with
  | float f =>
    simp only [element, floatJson]
    split <;> simp
  | _ => simp [element]

/-- An element and its key stand for one value. -/
private theorem element_inj {other : SenmlValue} (plain : NoFloat other)
    (kind : arrayKey value = arrayKey other) (same : element value = element other) : value = other := by
  cases other with
  | float => exact plain.elim
  | int i => cases value <;> simp_all [arrayKey, element]
  | str s => cases value <;> simp_all [arrayKey, element]
  | bool b => cases value <;> simp_all [arrayKey, element]
  | bytes b =>
    cases value with
    | bytes a => rw [base64Encode_injective (Json.str.inj same)]
    | _ => simp [arrayKey] at kind

private theorem elements_inj {key : String} {others : List SenmlValue}
    (plain : ∀ value ∈ others, NoFloat value) (kind : ∀ value ∈ values, arrayKey value = key)
    (kind' : ∀ value ∈ others, arrayKey value = key) (same : values.map element = others.map element) :
    values = others := by
  induction values generalizing others with
  | nil => exact (List.map_eq_nil_iff.mp same.symm).symm
  | cons value rest ih =>
    cases others with
    | nil => cases same
    | cons other later =>
      rw [List.forall_mem_cons] at plain kind kind'
      obtain ⟨here, there⟩ := List.cons.inj same
      rw [element_inj plain.1 (kind.1.trans kind'.1.symm) here, ih plain.2 kind.2 kind'.2 there]

private theorem encodeSingle_eq (type : ResourceType) (value : SenmlValue) :
    ∃ key ∈ singleKeys value, encodeSingleValue ts type value = valueObject key (element value) ts := by
  cases value with
  | int i =>
    refine ⟨if type = .time then "vt" else "vi", ?_, rfl⟩
    split <;> simp [singleKeys]
  | _ => exact ⟨_, List.mem_singleton_self _, rfl⟩

private theorem filterMap_takes {take : SenmlValue → Option Json}
    (each : ∀ value, take value = if takes type value then some (element value) else none) :
    values.filterMap take = (values.filter (takes type)).map element := by
  rw [← List.filterMap_eq_map, List.filterMap_filter]
  exact congrArg (values.filterMap ·) (funext each)

/-- A number type has an array of integers or one of doubles. -/
private theorem encodeArray_number (number : leavesOut type = false) :
    encodeArrayValue ts type values =
      if values.all (takes type) then
        valueObject "ai" (.arr ((values.filter (takes type)).map element)) ts
      else valueObject "af" (.arr ((values.filterMap SenmlValue.asF64).map floatJson)) ts := by
  have integer (value : SenmlValue) : value.asInt.isSome = takes type value := by
    cases type <;> simp [leavesOut] at number <;> cases value <;> rfl
  have items : (values.filterMap SenmlValue.asInt).map Json.int =
      (values.filter (takes type)).map element := by
    rw [List.map_filterMap]
    refine filterMap_takes fun value => ?_
    rw [← integer]
    cases value <;> rfl
  rw [← items, show values.all (takes type) = values.all (·.asInt.isSome) by simp only [integer]]
  cases type <;> simp [leavesOut] at number <;> rfl

/-- The array form keeps what it is made for. -/
private theorem encodeArray_eq (form : leavesOut type ∨ values.all (takes type)) :
    encodeArrayValue ts type values =
      valueObject (formKey type) (.arr ((values.filter (takes type)).map element)) ts := by
  cases number : leavesOut type with
  | false =>
    have integers : formKey type = "ai" := by
      cases type <;> simp [leavesOut] at number <;> rfl
    rw [encodeArray_number number, if_pos (form.resolve_left (by simp [number])), integers]
  | true =>
    cases type with
    | string =>
      rw [encodeArrayValue, @filterMap_takes .string values _ fun value => ?_]
      · rfl
      · cases value <;> rfl
    | boolean =>
      rw [encodeArrayValue, @filterMap_takes .boolean values _ fun value => ?_]
      · rfl
      · cases value <;> rfl
    | opaqueBytes =>
      rw [encodeArrayValue, @filterMap_takes .opaqueBytes values _ fun value => ?_]
      · rfl
      · cases value <;> rfl
    | _ => simp [leavesOut] at number

private theorem encodeArray_doubles (form : ¬ (leavesOut type ∨ values.all (takes type))) :
    ∃ items, encodeArrayValue ts type values = valueObject "af" (.arr items) ts := by
  rw [not_or, Bool.not_eq_true] at form
  exact ⟨_, (encodeArray_number form.1).trans (if_neg form.2)⟩

private theorem takes_narrow (type : ResourceType) (value : SenmlValue) :
    takes type (narrow value) = takes type value := by
  cases value <;> rfl

private theorem arrayKey_single {other : SenmlValue} {key : String} (kind : key ∈ singleKeys value)
    (kind' : key ∈ singleKeys other) : arrayKey value = arrayKey other := by
  cases value <;> cases other <;> simp_all [singleKeys, arrayKey]

private theorem shows_single {key : String} (kind : key ∈ singleKeys value)
    (plain : ∀ value ∈ values, NoFloat value) :
    Shows (valueObject key (element value) ts) values ↔ [value] = values := by
  constructor
  · intro shows_
    generalize same : valueObject key (element value) ts = json at shows_
    cases shows_ with
    | @single other key' ts' kind' =>
      obtain ⟨rfl, content⟩ := valueObject_inj (singleKeys_ne_ts kind) same
      rw [element_inj (plain other List.mem_cons_self) (arrayKey_single kind kind') content]
    | array ts' _ => exact absurd (valueObject_inj (singleKeys_ne_ts kind) same).2 (element_ne_arr _ _)
  · rintro rfl
    exact .single ts kind

private theorem shows_array {key : String} (named : key ≠ "ts") (kind : ∀ value ∈ held, arrayKey value = key)
    (plain : ∀ value ∈ values, NoFloat value) :
    Shows (valueObject key (.arr (held.map element)) ts) values ↔ held = values := by
  constructor
  · intro shows_
    generalize same : valueObject key (.arr (held.map element)) ts = json at shows_
    cases shows_ with
    | single ts' _ => exact absurd (valueObject_inj named same).2.symm (element_ne_arr _ _)
    | array ts' kind' =>
      obtain ⟨rfl, content⟩ := valueObject_inj named same
      exact elements_inj plain kind kind' (Json.arr.inj content)
  · rintro rfl
    exact .array ts kind

/-- Doubles show no integer. -/
private theorem not_shows_doubles {items : List Json} (some_ : values ≠ [])
    (plain : ∀ value ∈ values, NoFloat value) : ¬ Shows (valueObject "af" (.arr items) ts) values := by
  intro shows_
  generalize same : valueObject "af" (.arr items) ts = json at shows_
  cases shows_ with
  | single ts' _ => exact element_ne_arr _ _ (valueObject_inj (by decide) same).2.symm
  | @array _ key ts' kind =>
    obtain ⟨rfl, -⟩ := valueObject_inj (by decide) same
    obtain ⟨value, rest, rfl⟩ := List.exists_cons_of_ne_nil some_
    have float := kind value List.mem_cons_self
    have plain := plain value List.mem_cons_self
    cases value with
    | float => exact plain
    | _ => exact absurd float (by simp [arrayKey])

/-- **What the value object of a resource shows.** -/
theorem shows_encodeResource (held : List SenmlValue) (some_ : values ≠ [])
    (plain : ∀ value ∈ values, NoFloat value) :
    Shows (encodeResource ts resDef (held.map narrow) isArray) values ↔
      shown resDef isArray held = some values := by
  have form : (held.map narrow).all (takes resDef.resourceType) = held.all (takes resDef.resourceType) := by
    rw [List.all_map]
    exact congrArg held.all (funext fun value => takes_narrow _ value)
  have kept : (held.map narrow).filter (takes resDef.resourceType) =
      (held.filter (takes resDef.resourceType)).map narrow := by
    rw [List.filter_map]
    exact congrArg (List.map narrow <| held.filter ·) (funext fun value => takes_narrow _ value)
  unfold shown
  split
  · rename_i alone
    obtain ⟨value, rfl⟩ := List.length_eq_one_iff.mp alone.2
    obtain ⟨key, kind, encoded⟩ := @encodeSingle_eq ts resDef.resourceType (narrow value)
    have single : encodeResource ts resDef [narrow value] isArray =
        encodeSingleValue ts resDef.resourceType (narrow value) := by
      simp only [encodeResource, alone.1]
    rw [List.map_singleton, single, encoded, shows_single kind plain, Option.some_inj]
  · rename_i together
    have array : encodeResource ts resDef (held.map narrow) isArray =
        encodeArrayValue ts resDef.resourceType (held.map narrow) := by
      unfold encodeResource
      split
      · rename_i alone one
        exact absurd ⟨one, by rw [← List.length_map narrow, alone, List.length_singleton]⟩ together
      · rfl
    rw [array, ← form]
    split
    · rename_i takes_
      have named : formKey resDef.resourceType ≠ "ts" := by
        cases resDef.resourceType <;> decide
      have kind : ∀ value ∈ (held.filter (takes resDef.resourceType)).map narrow,
          arrayKey value = formKey resDef.resourceType := by
        intro value member
        rw [← kept] at member
        exact of_decide_eq_true (List.mem_filter.mp member).2
      rw [encodeArray_eq takes_, kept, shows_array named kind plain, Option.some_inj]
    · rename_i doubles
      obtain ⟨items, encoded⟩ := encodeArray_doubles doubles
      rw [encoded]
      exact iff_of_false (not_shows_doubles some_ plain) (by simp)

/-! ## Names in the payload -/

/-- Of the entries made for one key the last counts, here that of the greatest
id. -/
private theorem child_inOrder {V : Type} {table : Table UInt32 V} {key : String}
    {make : UInt32 × V → Option (String × Json)} :
    (Json.object ((inOrder table).filterMap make)).child key = some json ↔
      ∃ id held, table.lookup id = some held ∧ make (id, held) = some (key, json) ∧
        ∀ id' held' json', table.lookup id' = some held' → make (id', held') = some (key, json') →
          id' ≤ id := by
  suffices sorted : ∀ entries : List (UInt32 × V), entries.Pairwise (·.1 < ·.1) →
      ((Json.object (entries.filterMap make)).child key = some json ↔
        ∃ id held, (id, held) ∈ entries ∧ make (id, held) = some (key, json) ∧
          ∀ id' held' json', (id', held') ∈ entries → make (id', held') = some (key, json') →
            id' ≤ id) by
    simpa only [mem_inOrder] using sorted _ (pairwise_inOrder table)
  intro entries order
  induction entries using List.reverseRecOn with
  | nil => simp [Json.object, child, field]
  | append_singleton entries entry ih =>
    rw [List.pairwise_append] at order
    obtain ⟨order, -, after⟩ := order
    obtain ⟨id, held⟩ := entry
    by_cases made : ∃ value, make (id, held) = some (key, value)
    · obtain ⟨value, made⟩ := made
      rw [List.filterMap_append, List.filterMap_cons_some made, List.filterMap_nil, child_object_append,
        if_pos rfl, Option.some_inj]
      constructor
      · rintro rfl
        refine ⟨id, held, List.mem_append_right _ List.mem_cons_self, made, fun id' held' _ member _ => ?_⟩
        rcases List.mem_append.mp member with before | same
        · exact UInt32.le_of_lt (after _ before _ List.mem_cons_self)
        · rw [(Prod.mk.inj (List.mem_singleton.mp same)).1]
          exact UInt32.le_refl _
      · rintro ⟨id', held', member, made', greatest⟩
        rcases List.mem_append.mp member with before | same
        · have later := greatest id held value (List.mem_append_right _ List.mem_cons_self) made
          exact absurd (after _ before _ List.mem_cons_self) (UInt32.not_lt.mpr later)
        · obtain ⟨rfl, rfl⟩ := Prod.mk.inj (List.mem_singleton.mp same)
          rw [made] at made'
          exact (Prod.mk.inj (Option.some.inj made')).2
    · have elsewhere {id' : UInt32} {held' : V} {json' : Json} (made' : make (id', held') = some (key, json')) :
          (id', held') ∈ entries ++ [(id, held)] ↔ (id', held') ∈ entries := by
        rw [List.mem_append, or_iff_left]
        intro same
        obtain ⟨rfl, rfl⟩ := Prod.mk.inj (List.mem_singleton.mp same)
        exact made ⟨json', made'⟩
      have skipped : (Json.object ((entries ++ [(id, held)]).filterMap make)).child key =
          (Json.object (entries.filterMap make)).child key := by
        rw [List.filterMap_append]
        cases other : make (id, held) with
        | none => rw [List.filterMap_cons_none other, List.filterMap_nil, List.append_nil]
        | some pair =>
          rw [List.filterMap_cons_some other, List.filterMap_nil, child_object_append, if_neg]
          rintro rfl
          exact made ⟨pair.2, other⟩
      rw [skipped, ih order]
      constructor
      · rintro ⟨id', held', member, made', greatest⟩
        exact ⟨id', held', (elsewhere made').mpr member, made',
          fun id held json inside found => greatest id held json ((elsewhere found).mp inside) found⟩
      · rintro ⟨id', held', member, made', greatest⟩
        exact ⟨id', held', (elsewhere made').mp member, made',
          fun id held json inside found => greatest id held json ((elsewhere found).mpr inside) found⟩

private theorem mem_reportsFor :
    reportsFor object inst resource records ≠ [] ↔
      ∃ x ∈ reports records, x.object = object ∧ x.inst = inst ∧ x.resource = resource := by
  rw [reportsFor, ne_eq, List.filter_eq_nil_iff]
  simp only [decide_eq_true_eq, not_forall, not_not, exists_prop]
  exact Iff.rfl

/-- The objects of a payload, named by the model. -/
private def objectsOf (ipso : IpsoModel) (ts : Nat) (objVersions : Table UInt32 String)
    (entry : UInt32 × Table UInt32 (Table UInt32 (List SenmlValue × Bool))) : Option (String × Json) :=
  (ipso.getVersioned entry.1 (objVersions.lookup entry.1)).map fun objDef =>
    (objDef.name, encodeObject ts objDef entry.2)

private theorem cell_values {cell : List SenmlValue × Bool} :
    cellAt (rawOf records) object inst resource = some cell ↔
      reportsFor object inst resource records ≠ [] ∧
        cell = ((valuesFor object inst resource records).map narrow, arrayFor object inst resource records) := by
  rw [cellAt_raw, entryOf_eq_some, ne_eq, List.map_eq_nil_iff]
  refine and_congr_right fun _ => ?_
  rw [List.map_map, List.any_map, Prod.ext_iff, valuesFor, arrayFor, List.map_map]
  exact and_congr eq_comm eq_comm

private theorem child_resource {resources : Table UInt32 (List SenmlValue × Bool)} :
    (encodeInstance ts objDef resources).child resourceName = some json ↔
      ∃ resource cell, resources.lookup resource = some cell ∧
        (objDef.resource resource).name = resourceName ∧
        json = encodeResource ts (objDef.resource resource) cell.1 cell.2 ∧
        ∀ other cell', resources.lookup other = some cell' →
          (objDef.resource other).name = resourceName → other ≤ resource := by
  rw [encodeInstance, ← List.filterMap_eq_map, child_inOrder]
  simp only [Function.comp_apply, Option.some_inj, Prod.mk.injEq]
  constructor
  · rintro ⟨resource, cell, held, ⟨named, rfl⟩, last⟩
    exact ⟨resource, cell, held, named, rfl, fun other cell' there same =>
      last other cell' _ there ⟨same, rfl⟩⟩
  · rintro ⟨resource, cell, held, named, rfl, last⟩
    exact ⟨resource, cell, held, ⟨named, rfl⟩, fun other cell' _ there same =>
      last other cell' there same.1⟩

private theorem child_payload {json : Json} :
    (Json.object ((inOrder (rawOf records)).filterMap (objectsOf ipso ts objVersions))).child objectName =
      some json ↔
    ∃ object instances objDef, (rawOf records).lookup object = some instances ∧
      ipso.getVersioned object (objVersions.lookup object) = some objDef ∧ objDef.name = objectName ∧
      json = encodeObject ts objDef instances ∧
      ∀ x ∈ reports records, ∀ other,
        ipso.getVersioned x.object (objVersions.lookup x.object) = some other →
        other.name = objectName → x.object ≤ object := by
  rw [child_inOrder]
  constructor
  · rintro ⟨object, instances, held, made, last⟩
    obtain ⟨objDef, known, pair⟩ := Option.map_eq_some_iff.mp made
    obtain ⟨named, rfl⟩ := Prod.mk.inj pair
    refine ⟨object, instances, objDef, held, known, named, rfl, fun x member other found same => ?_⟩
    obtain ⟨others, there⟩ := Option.isSome_iff_exists.mp (object_raw records |>.mpr ⟨x, member, rfl⟩)
    exact last x.object others _ there (by rw [objectsOf, found, Option.map_some, same])
  · rintro ⟨object, instances, objDef, held, known, rfl, rfl, last⟩
    refine ⟨object, instances, held, by rw [objectsOf, known, Option.map_some], ?_⟩
    intro other others json there made
    obtain ⟨x, member, rfl⟩ := (object_raw records).mp (Option.isSome_iff_exists.mpr ⟨others, there⟩)
    obtain ⟨otherDef, found, pair⟩ := Option.map_eq_some_iff.mp made
    exact last x member otherDef found (Prod.mk.inj pair).1

/-- **What is under the names of a path.** -/
theorem entryAt_object :
    entryAt (Json.object ((inOrder (rawOf records)).filterMap (objectsOf ipso ts objVersions))) objectName
      (toString inst.toNat) resourceName = some json ↔
    ∃ object objDef resource,
      Stands ipso objVersions records objectName inst resourceName object objDef resource ∧
      json = encodeResource ts (objDef.resource resource)
        ((valuesFor object inst resource records).map narrow) (arrayFor object inst resource records) := by
  have cells {object : UInt32} {instances resources} (inTable : (rawOf records).lookup object = some instances)
      (held : instances.lookup inst = some resources) (resource : UInt32) :
      resources.lookup resource = cellAt (rawOf records) object inst resource := by
    rw [cellAt, inTable, Option.bind_some, held, Option.bind_some]
  rw [entryAt, Option.bind_eq_some_iff]
  simp only [Option.bind_eq_some_iff, child_payload]
  constructor
  · rintro ⟨_, ⟨_, ⟨object, instances, objDef, inTable, known, named, rfl, lastObject⟩, atInst⟩,
      atResource⟩
    rw [instance_entry] at atInst
    obtain ⟨resources, held, rfl⟩ := Option.map_eq_some_iff.mp atInst
    obtain ⟨resource, cell, inside, resourceNamed, rfl, last⟩ := child_resource.mp atResource
    rw [cells inTable held] at inside
    obtain ⟨reported, rfl⟩ := cell_values.mp inside
    refine ⟨object, objDef, resource, ⟨known, named, lastObject, reported, resourceNamed, ?_⟩, rfl⟩
    rintro x member rfl rfl same
    have there := cell_values.mpr ⟨mem_reportsFor.mpr ⟨x, member, rfl, rfl, rfl⟩, rfl⟩
    rw [← cells inTable held] at there
    exact last x.resource _ there same
  · rintro ⟨object, objDef, resource, stands, rfl⟩
    have inside := cell_values.mpr ⟨stands.reported, rfl⟩
    obtain ⟨resources, atInst, held⟩ := Option.bind_eq_some_iff.mp inside
    obtain ⟨instances, inTable, atInst⟩ := Option.bind_eq_some_iff.mp atInst
    refine ⟨encodeInstance ts objDef resources, ⟨encodeObject ts objDef instances, ⟨object, instances,
      objDef, inTable, stands.known, stands.objectNamed, rfl, stands.lastObject⟩, ?_⟩, ?_⟩
    · rw [instance_entry, atInst, Option.map_some]
    · refine child_resource.mpr ⟨resource, _, held, stands.resourceNamed, rfl, ?_⟩
      intro other cell there same
      rw [cells inTable atInst] at there
      obtain ⟨x, member, rfl, rfl, rfl⟩ := mem_reportsFor.mp (cell_values.mp there).1
      exact stands.lastResource x member rfl rfl same

/-- One resource stands under the names of a path. -/
private theorem stands_unique {other : UInt32} {otherDef : ObjectDef} {otherResource : UInt32}
    (first : Stands ipso objVersions records objectName inst resourceName object objDef resource)
    (second : Stands ipso objVersions records objectName inst resourceName other otherDef otherResource) :
    object = other ∧ objDef = otherDef ∧ resource = otherResource := by
  obtain ⟨x, member, rfl, rfl, rfl⟩ := mem_reportsFor.mp first.reported
  obtain ⟨y, member', rfl, sameInst, rfl⟩ := mem_reportsFor.mp second.reported
  have sameObject : x.object = y.object :=
    UInt32.le_antisymm (second.lastObject x member objDef first.known first.objectNamed)
      (first.lastObject y member' otherDef second.known second.objectNamed)
  have sameDef : objDef = otherDef := by
    have known := second.known
    rw [← sameObject, first.known] at known
    exact Option.some.inj known
  subst sameDef
  refine ⟨sameObject, rfl, UInt32.le_antisymm ?_ ?_⟩
  · exact second.lastResource x member sameObject rfl first.resourceNamed
  · exact first.lastResource y member' sameObject.symm sameInst second.resourceNamed

private theorem built (decoded : decode data = .ok (.array records))
    (known : ipso.getVersioned object (objVersions.lookup object) = some objDef)
    (reported : reportsFor object inst resource records ≠ []) :
    buildDevicePayload decode ipso ts data objVersions =
      some (Json.object ((inOrder (rawOf records)).filterMap (objectsOf ipso ts objVersions))) := by
  obtain ⟨x, member, rfl, -⟩ := mem_reportsFor.mp reported
  obtain ⟨instances, held⟩ := Option.isSome_iff_exists.mp ((object_raw records).mpr ⟨x, member, rfl⟩)
  have listed : (objDef.name, encodeObject ts objDef instances) ∈
      (inOrder (rawOf records)).filterMap (objectsOf ipso ts objVersions) :=
    List.mem_filterMap.mpr ⟨(x.object, instances), mem_inOrder.mpr held, by
      rw [objectsOf, known, Option.map_some]⟩
  rw [buildDevicePayload, decoded]
  exact if_neg (List.ne_nil_of_mem listed)

private theorem delivered_iff (reported : reportsFor object inst resource records ≠ [])
    (plain : ∀ value ∈ valuesFor object inst resource records, NoFloat value) :
    Delivered (Json.object ((inOrder (rawOf records)).filterMap (objectsOf ipso ts objVersions))) records
        object objDef inst resource ↔
      ∃ other otherDef otherResource,
        Stands ipso objVersions records objDef.name inst (objDef.resource resource).name other otherDef
          otherResource ∧
        shown (otherDef.resource otherResource) (arrayFor other inst otherResource records)
          (valuesFor other inst otherResource records) = some (valuesFor object inst resource records) := by
  have some_ : valuesFor object inst resource records ≠ [] := by
    rwa [valuesFor, ne_eq, List.map_eq_nil_iff]
  unfold Delivered
  simp only [entryAt_object]
  constructor
  · rintro ⟨_, ⟨other, otherDef, otherResource, stands, rfl⟩, shows_⟩
    exact ⟨other, otherDef, otherResource, stands, (shows_encodeResource _ some_ plain).mp shows_⟩
  · rintro ⟨other, otherDef, otherResource, stands, all⟩
    exact ⟨_, ⟨other, otherDef, otherResource, stands, rfl⟩, (shows_encodeResource _ some_ plain).mpr all⟩

/-- **When all reported values reach the event.** The resource stands under its
names itself, its integers fit an `i64`, and it has one value in the single
form or the values its array form is made for; or another resource stands
there that shows the same values by chance. -/
theorem delivered_iff_kept (decoded : decode data = .ok (.array records))
    (known : ipso.getVersioned object (objVersions.lookup object) = some objDef)
    (reported : reportsFor object inst resource records ≠ [])
    (plain : ∀ value ∈ valuesFor object inst resource records, NoFloat value) :
    ∃ payload, buildDevicePayload decode ipso ts data objVersions = some payload ∧
      (Delivered payload records object objDef inst resource ↔
        Unreplaced ipso objVersions records object objDef inst resource ∧
            Kept (objDef.resource resource) (arrayFor object inst resource records)
              (valuesFor object inst resource records) ∨
          ¬ Unreplaced ipso objVersions records object objDef inst resource ∧
            ∃ other otherDef otherResource,
              Stands ipso objVersions records objDef.name inst (objDef.resource resource).name other
                otherDef otherResource ∧
              shown (otherDef.resource otherResource) (arrayFor other inst otherResource records)
                (valuesFor other inst otherResource records) =
                  some (valuesFor object inst resource records)) := by
  refine ⟨_, built decoded known reported, (delivered_iff reported plain).trans ?_⟩
  constructor
  · rintro ⟨other, otherDef, otherResource, stands, all⟩
    by_cases own : Unreplaced ipso objVersions records object objDef inst resource
    · obtain ⟨rfl, rfl, rfl⟩ := stands_unique own stands
      exact Or.inl ⟨own, shown_eq_iff_kept.mp all⟩
    · exact Or.inr ⟨own, other, otherDef, otherResource, stands, all⟩
  · rintro (⟨own, kept⟩ | ⟨_, replaced⟩)
    · exact ⟨object, objDef, resource, own, shown_eq_iff_kept.mpr kept⟩
    · exact replaced

private def input : ObjectDef where
  name := "digital_input"
  urn := "urn:oma:lwm2m:ext:3200"
  resources := (∅ : Table UInt32 ResourceDef).insert 5501 ⟨"counter", .integer, false⟩

private def inputModel : IpsoModel where
  objects := (∅ : Table UInt32 (Table String ObjectDef)).insert 3200
    ((∅ : Table String ObjectDef).insert "" input)

/-- Three counters, the state of a door between them. -/
private def counterRecords : List Cbor :=
  [.map [(.integer (-2), .text "/3200/0/"), (.integer 0, .text "5501/0"), (.integer 2, .integer 7)],
    .map [(.integer 0, .text "5500"), (.integer 2, .integer 1)],
    .map [(.integer 0, .text "5501/1"), (.integer 2, .integer (-40000))],
    .map [(.integer 0, .text "5501/2"), (.integer 2, .integer 1700000000)]]

private theorem reports_counters : reports counterRecords =
    [⟨3200, 0, 5501, true, .int 7⟩, ⟨3200, 0, 5500, false, .int 1⟩,
      ⟨3200, 0, 5501, true, .int (-40000)⟩, ⟨3200, 0, 5501, true, .int 1700000000⟩] := by decide

theorem delivered_counters :
    ∃ payload, buildDevicePayload (fun _ => .ok (.array counterRecords)) inputModel 1700000000 [] ∅ =
        some payload ∧
      valuesFor 3200 0 5501 counterRecords = [.int 7, .int (-40000), .int 1700000000] ∧
      Delivered payload counterRecords 3200 input 0 5501 := by
  have values : valuesFor 3200 0 5501 counterRecords = [.int 7, .int (-40000), .int 1700000000] := by
    decide
  have plain : ∀ value ∈ valuesFor 3200 0 5501 counterRecords, NoFloat value := by
    simp [values, NoFloat]
  have known : inputModel.getVersioned 3200 ((∅ : Table UInt32 String).lookup 3200) = some input := rfl
  obtain ⟨payload, made, delivered⟩ := @delivered_iff_kept 1700000000
    (fun _ => .ok (.array counterRecords)) inputModel [] ∅ counterRecords 3200 0 5501 input rfl known
    (by decide) plain
  refine ⟨payload, made, values, delivered.mpr (Or.inl ⟨⟨known, rfl, ?_, by decide, rfl, ?_⟩, ?_⟩)⟩
  · simp [reports_counters]
  · simp [reports_counters]
  · have counter : (input.resource 5501).resourceType = .integer := rfl
    exact ⟨by simp [values, Fits], Or.inr (by simp [values, takes, formKey, arrayKey, counter])⟩

private def linkRecords : List Cbor :=
  [.map [(.integer 0, .text "/3200/0/5502/0"), (.integer 3, .text "</3200/0/5500>")]]

private def linked : ObjectDef where
  name := "digital_input"
  urn := "urn:oma:lwm2m:ext:3200"
  resources := (∅ : Table UInt32 ResourceDef).insert 5502 ⟨"links", .coreLink, true⟩

private def linkedModel : IpsoModel where
  objects := (∅ : Table UInt32 (Table String ObjectDef)).insert 3200
    ((∅ : Table String ObjectDef).insert "" linked)

/-- An array of links comes out as an array of numbers, without them. -/
theorem dropped_links :
    ∃ payload, buildDevicePayload (fun _ => .ok (.array linkRecords)) linkedModel 1700000000 [] ∅ =
        some payload ∧
      linkedModel.getVersioned 3200 none = some linked ∧
      valuesFor 3200 0 5502 linkRecords = [.str "</3200/0/5500>"] ∧
      ¬ Delivered payload linkRecords 3200 linked 0 5502 := by
  have values : valuesFor 3200 0 5502 linkRecords = [.str "</3200/0/5500>"] := by decide
  have known : linkedModel.getVersioned 3200 ((∅ : Table UInt32 String).lookup 3200) = some linked := rfl
  have reported : reportsFor 3200 0 5502 linkRecords ≠ [] := by decide
  have only : reports linkRecords = [⟨3200, 0, 5502, true, .str "</3200/0/5500>"⟩] := by decide
  refine ⟨_, built rfl known reported, rfl, values, ?_⟩
  rw [delivered_iff reported (by simp [values, NoFloat])]
  rintro ⟨other, otherDef, otherResource, stands, all⟩
  have own : Stands linkedModel ∅ linkRecords linked.name 0 (linked.resource 5502).name 3200 linked 5502 :=
    ⟨known, rfl, by simp [only], reported, rfl, by simp [only]⟩
  obtain ⟨rfl, rfl, rfl⟩ := stands_unique own stands
  have link : (linked.resource 5502).resourceType = .coreLink := rfl
  have several : (linked.resource 5502).multipleInstances = true := rfl
  have kept := (shown_eq_iff_kept.mp all).2
  simp [values, takes, formKey, arrayKey, link, several] at kept

end Lwm2mServer.ReportedValues
