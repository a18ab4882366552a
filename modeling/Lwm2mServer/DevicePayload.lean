import Lwm2mServer.Coap
import Lwm2mServer.Json
import Lwm2mServer.Provisioning
import Mathlib.Data.List.Sort

/-! `build_device_payload` of `server.rs`: a decoded SenML report is grouped by
object, instance and resource id, and every resource becomes a JSON object with
one value and the time of the report. The names come from the IPSO model. -/
namespace Lwm2mServer
open Library

/-! ## `ipso.rs` -/

inductive ResourceType where
  | integer | float | string | boolean | time | opaqueBytes | coreLink | unsignedInteger
  deriving DecidableEq, Repr

structure ResourceDef where
  name : String
  resourceType : ResourceType
  multipleInstances : Bool

structure ObjectDef where
  name : String
  urn : String
  resources : Table UInt32 ResourceDef

/-- Definitions by object id and version. -/
structure IpsoModel where
  objects : Table UInt32 (Table String ObjectDef)

/-- `get_versioned`: the version asked for, else the unversioned definition,
else any. -/
def IpsoModel.getVersioned (ipso : IpsoModel) (objectId : UInt32) (version : Option String) :
    Option ObjectDef := do
  let versions ← ipso.objects.lookup objectId
  (version.bind versions.lookup).or ((versions.lookup "").or versions.values.head?)

/-! ## Values -/

inductive SenmlValue where
  | int (value : Int)
  | float (bits : UInt64)
  | str (value : String)
  | bool (value : Bool)
  | bytes (value : Bytes)
  deriving DecidableEq, Repr

/-- `i as f64`, as bits: the nearest double, ties to the even one. -/
def f64OfInt (i : Int) : UInt64 :=
  let m := i.natAbs
  if m = 0 then 0
  else
    let e := m.log2
    let unit := 2 ^ (e - 52)
    let up := unit < 2 * (m % unit) ∨ (2 * (m % unit) = unit ∧ m / unit % 2 = 1)
    let fraction := if e ≤ 52 then m * 2 ^ (52 - e) else if up then m / unit + 1 else m / unit
    -- a fraction rounded up to `2 ^ 53` carries into the exponent
    let sign := if i < 0 then 2 ^ 63 else 0
    UInt64.ofNat (sign + (1023 + e) * 2 ^ 52 + (fraction - 2 ^ 52))

example : [1, -2, 3, 9007199254740993, 9223372036854775807].map f64OfInt =
    [0x3ff0000000000000, 0xc000000000000000, 0x4008000000000000, 0x4340000000000000,
      0x43e0000000000000] := by decide +kernel

/-- `Value::from` a double: null when it is not finite. -/
def floatJson (bits : UInt64) : Json := if bits >>> 52 &&& 0x7ff = 0x7ff then .null else .float bits

def base64Digit (n : Nat) : Char :=
  "ABCDEFGHIJKLMNOPQRSTUVWXYZabcdefghijklmnopqrstuvwxyz0123456789+/".toList.getD n '='

/-- `STANDARD.encode`. -/
def base64Chars : Bytes → List Char
  | [] => []
  | [a] =>
    let n := a.toNat * 16
    [base64Digit (n / 64), base64Digit (n % 64), '=', '=']
  | [a, b] =>
    let n := (a.toNat * 256 + b.toNat) * 4
    [base64Digit (n / 4096), base64Digit (n / 64 % 64), base64Digit (n % 64), '=']
  | a :: b :: c :: rest =>
    let n := (a.toNat * 256 + b.toNat) * 256 + c.toNat
    base64Digit (n / 262144) :: base64Digit (n / 4096 % 64) :: base64Digit (n / 64 % 64) ::
      base64Digit (n % 64) :: base64Chars rest

def base64Encode (bytes : Bytes) : String := String.ofList (base64Chars bytes)

example : base64Encode [0x66, 0x6f, 0x6f, 0x62, 0x61] = "Zm9vYmE=" := by decide

/-- `{key: value, "ts": ts}`. -/
def valueObject (key : String) (value : Json) (ts : Nat) : Json :=
  .object [(key, value), ("ts", .int ts)]

def encodeSingleValue (ts : Nat) (type : ResourceType) : SenmlValue → Json
  | .int i => valueObject (if type = .time then "vt" else "vi") (.int i) ts
  | .float f => valueObject "vf" (floatJson f) ts
  | .str s => valueObject "vs" (.str s) ts
  | .bool b => valueObject "vb" (.bool b) ts
  | .bytes b => valueObject "vo" (.str (base64Encode b)) ts

def SenmlValue.asInt : SenmlValue → Option Int
  | .int i => some i
  | _ => none

/-- The value as a double; text, booleans and bytes are left out. -/
def SenmlValue.asF64 : SenmlValue → Option UInt64
  | .int i => some (f64OfInt i)
  | .float f => some f
  | _ => none

def encodeArrayValue (ts : Nat) (type : ResourceType) (values : List SenmlValue) : Json :=
  match type with
  | .string => valueObject "as" (.arr (values.filterMap fun
      | .str s => some (.str s)
      | _ => none)) ts
  | .boolean => valueObject "ab" (.arr (values.filterMap fun
      | .bool b => some (.bool b)
      | _ => none)) ts
  | .opaqueBytes => valueObject "ao" (.arr (values.filterMap fun
      | .bytes b => some (.str (base64Encode b))
      | _ => none)) ts
  | _ =>
    if values.all (·.asInt.isSome) then
      valueObject "ai" (.arr ((values.filterMap SenmlValue.asInt).map .int)) ts
    else valueObject "af" (.arr ((values.filterMap SenmlValue.asF64).map floatJson)) ts

/-! ## Records -/

/-- Values by object, instance and resource id, each with whether a path named
a resource instance. -/
abbrev RawPayload := Table UInt32 (Table UInt32 (Table UInt32 (List SenmlValue × Bool)))

/-- The entries of a `BTreeMap` in key order. -/
def inOrder {V : Type} (table : Table UInt32 V) : List (UInt32 × V) :=
  (table.keys.insertionSort (· ≤ ·)).filterMap fun key => (table.lookup key).map (key, ·)

theorem mem_inOrder {V : Type} {table : Table UInt32 V} {key : UInt32} {value : V} :
    (key, value) ∈ inOrder table ↔ table.lookup key = some value := by
  rw [inOrder, List.mem_filterMap]
  constructor
  · rintro ⟨other, -, found⟩
    obtain ⟨_, held, same⟩ := Option.map_eq_some_iff.mp found
    cases same
    exact held
  · intro held
    refine ⟨key, ?_, by rw [held]; rfl⟩
    rw [List.mem_insertionSort]
    exact AList.mem_keys.mp (AList.lookup_isSome.mp (by rw [held]; rfl))

theorem pairwise_inOrder {V : Type} (table : Table UInt32 V) :
    (inOrder table).Pairwise (·.1 < ·.1) := by
  have distinct : (table.keys.insertionSort (· ≤ ·)).Nodup :=
    (List.perm_insertionSort _ _).nodup_iff.mpr table.nodupKeys
  have sorted : (table.keys.insertionSort (· ≤ ·)).Pairwise (· ≤ ·) := List.pairwise_insertionSort _ _
  have strict := sorted.and distinct
  refine strict.filterMap _ fun id later order entry made other made' => ?_
  obtain ⟨_, _, rfl⟩ := Option.map_eq_some_iff.mp made
  obtain ⟨_, _, rfl⟩ := Option.map_eq_some_iff.mp made'
  exact UInt32.lt_of_le_of_ne order.1 order.2

/-- `parse_lwm2m_path`: object, instance and resource id, and whether a
resource instance follows. -/
def parseLwm2mPath (path : String) : Option (UInt32 × UInt32 × UInt32 × Bool) :=
  match splitText '/' (String.ofList (path.toList.dropWhile (· = '/'))) with
  | obj :: inst :: res :: rest => do
    return (← parseU32 obj, ← parseU32 inst, ← parseU32 res, (rest.head?.bind parseU32).isSome)
  | _ => none

/-- What the fields of a record have said so far; the base name stays for the
records that follow. -/
structure SenmlRecord where
  baseName : String
  relName : String := ""
  value : Option SenmlValue := none

/-- One round of the loop over a record's fields. -/
def readField (record : SenmlRecord) : Cbor × Cbor → SenmlRecord
  | (.integer key, value) =>
    if key = -2 then match value with
      | .text s => { record with baseName := s }
      | _ => record
    else if key = 0 then match value with
      | .text s => { record with relName := s }
      | _ => record
    else if key = 2 then match value with
      -- `i128 as i64` keeps the low 64 bits
      | .integer i => { record with value := some (.int (i.bmod (2 ^ 64))) }
      | .float f => { record with value := some (.float f) }
      | _ => record
    else if key = 3 then match value with
      | .text s => { record with value := some (.str s) }
      | _ => record
    else if key = 4 then match value with
      | .bool b => { record with value := some (.bool b) }
      | _ => record
    else if key = 8 then match value with
      | .bytes b => { record with value := some (.bytes b) }
      | _ => record
    else record
  | _ => record

/-- A value is added to the resource it is for. -/
def addValue (raw : RawPayload) (obj inst res : UInt32) (value : SenmlValue) (hasResInst : Bool) :
    RawPayload :=
  let instances := (raw.lookup obj).getD ∅
  let resources := (instances.lookup inst).getD ∅
  let (values, isArray) := (resources.lookup res).getD ([], false)
  raw.insert obj (instances.insert inst (resources.insert res (values ++ [value], isArray || hasResInst)))

/-- One round of the loop over the records, with the base name so far. -/
def readRecord (acc : String × RawPayload) : Cbor → String × RawPayload
  | .map fields =>
    let record := fields.foldl readField { baseName := acc.1 }
    match record.value, parseLwm2mPath (record.baseName ++ record.relName) with
    | some value, some (obj, inst, res, hasResInst) =>
      (record.baseName, addValue acc.2 obj inst res value hasResInst)
    | _, _ => (record.baseName, acc.2)
  | _ => acc

/-! ## The payload -/

/-- The definition of a resource; one the model does not have is named by its
id. -/
def ObjectDef.resource (objDef : ObjectDef) (resId : UInt32) : ResourceDef :=
  (objDef.resources.lookup resId).getD ⟨toString resId.toNat, .integer, false⟩

def encodeResource (ts : Nat) (resDef : ResourceDef) (values : List SenmlValue) (pathIsArray : Bool) :
    Json :=
  match values, pathIsArray || resDef.multipleInstances with
  | [value], false => encodeSingleValue ts resDef.resourceType value
  | values, _ => encodeArrayValue ts resDef.resourceType values

def encodeInstance (ts : Nat) (objDef : ObjectDef)
    (resources : Table UInt32 (List SenmlValue × Bool)) : Json :=
  .object ((inOrder resources).map fun (resId, values, pathIsArray) =>
    ((objDef.resource resId).name, encodeResource ts (objDef.resource resId) values pathIsArray))

def encodeObject (ts : Nat) (objDef : ObjectDef)
    (instances : Table UInt32 (Table UInt32 (List SenmlValue × Bool))) : Json :=
  .object (("_urn", .str objDef.urn) :: (inOrder instances).map fun (instId, resources) =>
    (toString instId.toNat, encodeInstance ts objDef resources))

/-- `build_device_payload` at a Unix time; `none` also when no object of the
report is known to the model. -/
def buildDevicePayload (decode : Bytes → Except String Cbor) (ipso : IpsoModel) (ts : Nat)
    (data : Bytes) (objVersions : Table UInt32 String) : Option Json :=
  match decode data with
  | .ok (.array records) =>
    let raw := (records.foldl readRecord ("", ∅)).2
    let objects := (inOrder raw).filterMap fun (objId, instances) =>
      (ipso.getVersioned objId (objVersions.lookup objId)).map fun objDef =>
        (objDef.name, encodeObject ts objDef instances)
    if objects = [] then none else some (.object objects)
  | _ => none

end Lwm2mServer
