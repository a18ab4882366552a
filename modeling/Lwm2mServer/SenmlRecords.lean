import Lwm2mServer.DevicePayload
import Mathlib.Algebra.Ring.Int.Defs
import Mathlib.Data.List.Induction

/-! The decoding half of `build_device_payload`. `reports` says what a list of
SenML records reports, each record read by itself under the last base name
before or in it; `rawOf_eq` and `cellAt_raw` say that the loop collects this by
resource, as far as its values fit an `i64`, and `raw_perm` that the order of a
record's fields makes no difference. -/
namespace Lwm2mServer.SenmlRecords
open Library

/-! ## What a record reports -/

/-- The text of a field under a key. -/
def textUnder (key : Int) : Cbor × Cbor → Option String
  | (.integer k, .text s) => if k = key then some s else none
  | _ => none

/-- The value of a usable value field, as the record has it. -/
def valueUnder : Cbor × Cbor → Option SenmlValue
  | (.integer key, .integer i) => if key = 2 then some (.int i) else none
  | (.integer key, .float f) => if key = 2 then some (.float f) else none
  | (.integer key, .text s) => if key = 3 then some (.str s) else none
  | (.integer key, .bool b) => if key = 4 then some (.bool b) else none
  | (.integer key, .bytes b) => if key = 8 then some (.bytes b) else none
  | _ => none

/-- Distinct keys and at most one usable value field. -/
structure OneValued (fields : List (Cbor × Cbor)) : Prop where
  keys : (fields.map Prod.fst).Nodup
  value : (fields.filterMap valueUnder).length ≤ 1

/-- The text under a key; should the key be there twice, the last. -/
def textOf (key : Int) (fields : List (Cbor × Cbor)) : Option String :=
  fields.reverse.findSome? (textUnder key)

/-- The value of a record, of more than one the last. -/
def valueOf (fields : List (Cbor × Cbor)) : Option SenmlValue := fields.reverse.findSome? valueUnder

def baseOf : Cbor → Option String
  | .map fields => textOf (-2) fields
  | _ => none

/-- The most recent base name. -/
def baseName (records : List Cbor) : String := (records.reverse.findSome? baseOf).getD ""

/-- A value reported for a resource, and whether the name went on to a resource
instance. -/
structure Reading where
  object : UInt32
  inst : UInt32
  resource : UInt32
  isArray : Bool
  value : SenmlValue
  deriving DecidableEq

/-- What a record reports under a base name. -/
def reportUnder (base : String) : Cbor → Option Reading
  | .map fields => do
    let value ← valueOf fields
    let (object, inst, resource, isArray) ← parseLwm2mPath (base ++ (textOf 0 fields).getD "")
    return ⟨object, inst, resource, isArray, value⟩
  | _ => none

def reportAt (records : List Cbor) (k : Nat) : Option Reading :=
  records[k]?.bind (reportUnder (baseName (records.take (k + 1))))

def reports (records : List Cbor) : List Reading :=
  (List.range records.length).filterMap (reportAt records)

/-- Readings of one resource, in the form of an entry of the table. -/
def entryOf (readings : List Reading) : Option (List SenmlValue × Bool) :=
  if readings = [] then none
  else some (readings.map (·.value), readings.any (·.isArray))

def Reading.IsFor (x : Reading) (object inst resource : UInt32) : Prop :=
  x.object = object ∧ x.inst = inst ∧ x.resource = resource

instance instDecidableIsFor (x : Reading) (object inst resource : UInt32) :
    Decidable (x.IsFor object inst resource) :=
  inferInstanceAs (Decidable (_ ∧ _ ∧ _))

def reportsFor (object inst resource : UInt32) (records : List Cbor) : List Reading :=
  (reports records).filter fun x => x.IsFor object inst resource

def addReading (raw : RawPayload) (x : Reading) : RawPayload :=
  addValue raw x.object x.inst x.resource x.value x.isArray

/-- A table built from readings. -/
def collect (readings : List Reading) : RawPayload := readings.foldl addReading ∅

def cellAt (raw : RawPayload) (object inst resource : UInt32) : Option (List SenmlValue × Bool) :=
  ((raw.lookup object).bind (·.lookup inst)).bind (·.lookup resource)

/-- The table of a payload. -/
def rawOf (records : List Cbor) : RawPayload := (records.foldl readRecord ("", ∅)).2

/-- What is left of a value in the table: `as i64` keeps the low 64 bits. -/
def narrow : SenmlValue → SenmlValue
  | .int i => .int (i.bmod (2 ^ 64))
  | value => value

def Reading.narrowed (x : Reading) : Reading := { x with value := narrow x.value }

/-- The integers of an `i64`; every other value fits. -/
def Fits : SenmlValue → Prop
  | .int i => -2 ^ 63 ≤ i ∧ i < 2 ^ 63
  | _ => True

/-- A record with its fields in another order. -/
inductive Reordered : Cbor → Cbor → Prop
  | same (record : Cbor) : Reordered record record
  | fields {fields others : List (Cbor × Cbor)} (perm : fields.Perm others) :
    Reordered (.map fields) (.map others)

variable {α β : Type} {fields others : List (Cbor × Cbor)} {records : List Cbor}
  {record other : Cbor} {object inst resource : UInt32} {raw : RawPayload}

theorem narrow_eq_iff (value : SenmlValue) : narrow value = value ↔ Fits value := by
  cases value with
  | int i =>
    simp only [narrow, Fits, SenmlValue.int.injEq, Int.bmod_def]
    split <;> omega
  | _ => simp [narrow, Fits]

/-! ## One record -/

private theorem readField_eq (record : SenmlRecord) (field : Cbor × Cbor) :
    readField record field =
      { baseName := (textUnder (-2) field).getD record.baseName
        relName := (textUnder 0 field).getD record.relName
        value := ((valueUnder field).map narrow).or record.value } := by
  obtain ⟨key, value⟩ := field
  cases key with
  | integer key =>
    cases value with
    | integer i => by_cases two : key = 2 <;> simp [readField, textUnder, valueUnder, narrow, two]
    | float f => by_cases two : key = 2 <;> simp [readField, textUnder, valueUnder, narrow, two]
    | bool b => by_cases four : key = 4 <;> simp [readField, textUnder, valueUnder, narrow, four]
    | bytes b => by_cases eight : key = 8 <;> simp [readField, textUnder, valueUnder, narrow, eight]
    | text s =>
      by_cases base : key = -2
      · simp [readField, textUnder, valueUnder, base]
      by_cases name : key = 0
      · simp [readField, textUnder, valueUnder, name]
      by_cases three : key = 3 <;>
        simp [readField, textUnder, valueUnder, narrow, base, name, three]
    | _ => simp [readField, textUnder, valueUnder]
  | _ => simp [readField, textUnder, valueUnder]

private theorem foldl_readField (record : SenmlRecord) (fields : List (Cbor × Cbor)) :
    fields.foldl readField record =
      { baseName := (textOf (-2) fields).getD record.baseName
        relName := (textOf 0 fields).getD record.relName
        value := ((valueOf fields).map narrow).or record.value } := by
  induction fields generalizing record with
  | nil => rfl
  | cons field rest ih =>
    rw [List.foldl_cons, ih, readField_eq]
    simp only [textOf, valueOf, List.reverse_cons, List.findSome?_append, List.findSome?_singleton,
      Option.getD_or, Option.map_or, Option.or_assoc]

/-- `record` joins the table with what it reports. -/
private theorem readRecord_eq (acc : String × RawPayload) (record : Cbor) :
    readRecord acc record =
      ((baseOf record).getD acc.1,
        match reportUnder ((baseOf record).getD acc.1) record with
        | some x => addReading acc.2 x.narrowed
        | none => acc.2) := by
  cases record with
  | map fields =>
    simp only [readRecord, foldl_readField, baseOf, reportUnder, Option.or_none]
    cases valueOf fields with
    | none => rfl
    | some value =>
      cases parseLwm2mPath _ with
      | none => rfl
      | some path => rfl
  | _ => rfl

private theorem baseName_append (records : List Cbor) (record : Cbor) :
    baseName (records ++ [record]) = (baseOf record).getD (baseName records) := by
  rw [baseName, List.reverse_append, List.reverse_singleton, List.findSome?_append,
    List.findSome?_singleton, Option.getD_or, baseName]

/-- A record after the others changes none of their reports. -/
private theorem reports_append (records : List Cbor) (record : Cbor) :
    reports (records ++ [record]) =
      reports records ++ (reportUnder (baseName (records ++ [record])) record).toList := by
  have before (k : Nat) (below : k ∈ List.range records.length) :
      reportAt (records ++ [record]) k = reportAt records k := by
    have bound := List.mem_range.mp below
    rw [reportAt, reportAt, List.getElem?_append_left bound, List.take_append_of_le_length bound]
  have last : reportAt (records ++ [record]) records.length =
      reportUnder (baseName (records ++ [record])) record := by
    have whole : (records ++ [record]).take (records.length + 1) = records ++ [record] :=
      List.take_of_length_le (by rw [List.length_append, List.length_singleton])
    rw [reportAt, whole, List.getElem?_concat_length, Option.bind_some]
  rw [reports, List.length_append, List.length_singleton, List.range_succ, List.filterMap_append,
    List.filterMap_congr before, reports]
  congr 1
  cases reported : reportUnder (baseName (records ++ [record])) record with
  | none => rw [List.filterMap_cons_none (last.trans reported)]; rfl
  | some x => rw [List.filterMap_cons_some (last.trans reported)]; rfl

/-- **The loop collects the reports**, the integers cut to an `i64`. -/
theorem rawOf_eq (records : List Cbor) :
    rawOf records = collect ((reports records).map Reading.narrowed) := by
  suffices read : records.foldl readRecord ("", ∅) =
      (baseName records, collect ((reports records).map Reading.narrowed)) by
    rw [rawOf, read]
  induction records using List.reverseRecOn with
  | nil => rfl
  | append_singleton records record ih =>
    rw [List.foldl_append, List.foldl_cons, List.foldl_nil, ih, readRecord_eq, ← baseName_append,
      reports_append]
    cases reportUnder (baseName (records ++ [record])) record with
    | none => rw [Option.toList_none, List.append_nil]
    | some x =>
      rw [Option.toList_some, List.map_append, collect, collect, List.foldl_append]
      rfl

/-! ## The order of the fields -/

/-- One hit is found from either end, wherever it stands. -/
private theorem findSome?_perm {f : α → Option β} {items others : List α} (perm : items.Perm others)
    (once : (items.filterMap f).length ≤ 1) :
    items.reverse.findSome? f = others.reverse.findSome? f := by
  rw [← List.head?_filterMap, ← List.head?_filterMap, List.filterMap_reverse, List.filterMap_reverse,
    List.head?_reverse, List.head?_reverse]
  have same := perm.filterMap f
  match found : items.filterMap f, once with
  | [], _ =>
    rw [found] at same
    rw [List.nil_perm.mp same]
  | [_], _ =>
    rw [found] at same
    rw [List.singleton_perm.mp same]

/-- Distinct keys leave at most one text under each. -/
private theorem text_once (key : Int) (keys : (fields.map Prod.fst).Nodup) :
    (fields.filterMap (textUnder key)).length ≤ 1 := by
  have under (field : Cbor × Cbor) {s : String} (hit : textUnder key field = some s) :
      field.1 = .integer key := by
    unfold textUnder at hit
    split at hit
    · rename_i k s
      split at hit
      · rename_i same
        rw [same]
      · cases hit
    · cases hit
  induction fields with
  | nil => exact Nat.zero_le 1
  | cons field rest ih =>
    obtain ⟨fresh, distinct⟩ := List.nodup_cons.mp keys
    cases hit : textUnder key field with
    | none =>
      rw [List.filterMap_cons_none hit]
      exact ih distinct
    | some s =>
      have others : rest.filterMap (textUnder key) = [] := by
        rw [List.filterMap_eq_nil_iff]
        intro later member
        cases again : textUnder key later with
        | none => rfl
        | some t =>
          have held := List.mem_map_of_mem (f := Prod.fst) member
          rw [under later again, ← under field hit] at held
          exact absurd held fresh
      rw [List.filterMap_cons_some hit, others, List.length_singleton]

private theorem readRecord_perm (acc : String × RawPayload) (reordered : Reordered record other)
    (one : ∀ fields, record = .map fields → OneValued fields) :
    readRecord acc record = readRecord acc other := by
  cases reordered with
  | same => rfl
  | @fields fields others perm =>
    have alone := one fields rfl
    have base : textOf (-2) fields = textOf (-2) others := findSome?_perm perm (text_once _ alone.keys)
    have name : textOf 0 fields = textOf 0 others := findSome?_perm perm (text_once _ alone.keys)
    have value : valueOf fields = valueOf others := findSome?_perm perm alone.value
    simp only [readRecord_eq, baseOf, reportUnder, base, name, value]

/-- **The order of the fields makes no difference.** -/
theorem raw_perm {reordered : List Cbor} (one : ∀ fields, Cbor.map fields ∈ records → OneValued fields)
    (same : List.Forall₂ Reordered records reordered) : rawOf records = rawOf reordered := by
  suffices each : ∀ acc, records.foldl readRecord acc = reordered.foldl readRecord acc by
    rw [rawOf, rawOf, each]
  induction same with
  | nil => exact fun acc => rfl
  | cons first _ ih =>
    intro acc
    rw [List.foldl_cons, List.foldl_cons, readRecord_perm acc first fun fields held =>
      one fields (held ▸ List.mem_cons_self)]
    exact ih (fun fields member => one fields (List.mem_cons_of_mem _ member)) _

/-! ## The table -/

theorem cellAt_addReading (raw : RawPayload) (x : Reading) :
    cellAt (addReading raw x) object inst resource =
      if x.IsFor object inst resource then
        let (values, isArray) := (cellAt raw object inst resource).getD ([], false)
        some (values ++ [x.value], isArray || x.isArray)
      else cellAt raw object inst resource := by
  have inside {K V : Type} [DecidableEq K] (held : Option (Table K V)) (key : K) :
      (held.getD ∅).lookup key = held.bind (·.lookup key) := by
    cases held <;> rfl
  simp only [cellAt, addReading, addValue, Reading.IsFor, Table.lookup_insert_if, inside]
  by_cases o : object = x.object
  · subst o
    by_cases i : inst = x.inst
    · subst i
      by_cases r : resource = x.resource
      · subst r
        simp
      · simp [r, Ne.symm r, inside]
    · simp [i, Ne.symm i, inside]
  · simp [o, Ne.symm o]

/-- One more reading joins the entry of its resource. -/
private theorem entryOf_append (readings : List Reading) (x : Reading) :
    entryOf (readings ++ [x]) =
      let (values, isArray) := (entryOf readings).getD ([], false)
      some (values ++ [x.value], isArray || x.isArray) := by
  cases readings with
  | nil => simp [entryOf]
  | cons first rest => simp [entryOf, Bool.or_assoc]

private theorem cellAt_collect (readings : List Reading) :
    cellAt (collect readings) object inst resource =
      entryOf (readings.filter fun x => x.IsFor object inst resource) := by
  induction readings using List.reverseRecOn with
  | nil => rfl
  | append_singleton readings x ih =>
    rw [collect, List.foldl_append, List.foldl_cons, List.foldl_nil, cellAt_addReading,
      List.filter_append]
    by_cases here : x.IsFor object inst resource
    · rw [if_pos here, List.filter_cons_of_pos (by simpa using here), List.filter_nil, entryOf_append,
        ← ih]
      rfl
    · rw [if_neg here, List.filter_cons_of_neg (by simpa using here), List.filter_nil, List.append_nil]
      exact ih

/-- **What is in the table**: for each resource what the records report for it,
in their order. -/
theorem cellAt_raw (records : List Cbor) (object inst resource : UInt32) :
    cellAt (rawOf records) object inst resource =
      entryOf ((reportsFor object inst resource records).map Reading.narrowed) := by
  rw [rawOf_eq, cellAt_collect, List.filter_map, reportsFor]
  rfl

private theorem object_collect (readings : List Reading) :
    ((collect readings).lookup object).isSome ↔ ∃ x ∈ readings, x.object = object := by
  induction readings using List.reverseRecOn with
  | nil => simp [collect]
  | append_singleton readings x ih =>
    rw [collect, List.foldl_append, List.foldl_cons, List.foldl_nil, addReading, addValue,
      Table.lookup_insert_if]
    simp only [List.mem_append, List.mem_singleton, or_and_right, exists_or, exists_eq_left, ← ih]
    split
    · rename_i same
      exact iff_of_true rfl (Or.inr same.symm)
    · rename_i other
      rw [or_iff_left (Ne.symm other)]
      rfl

/-- An object is in the table exactly if something was reported of it. -/
theorem object_raw (records : List Cbor) :
    ((rawOf records).lookup object).isSome ↔ ∃ x ∈ reports records, x.object = object := by
  rw [rawOf_eq, object_collect]
  simp [Reading.narrowed]

theorem entryOf_eq_some {readings : List Reading} {values : List SenmlValue} {isArray : Bool} :
    entryOf readings = some (values, isArray) ↔
      readings ≠ [] ∧ readings.map (·.value) = values ∧ readings.any (·.isArray) = isArray := by
  unfold entryOf
  split
  · rename_i empty
    simp [empty]
  · rename_i filled
    simp [filled]

/-! ## Grouping -/

/-- Each entry of the table is what the records report. -/
def Grouped (records : List Cbor) : Prop :=
  ∀ object inst resource,
    cellAt (rawOf records) object inst resource = entryOf (reportsFor object inst resource records)

/-- The payload does not depend on the order of the fields. -/
def OrderFree (records : List Cbor) : Prop :=
  ∀ (reordered : List Cbor) (decode : Bytes → Except String Cbor) (ipso : IpsoModel) (ts : Nat)
    (data data' : Bytes) (objVersions : Table UInt32 String),
    List.Forall₂ Reordered records reordered → decode data = .ok (.array records) →
    decode data' = .ok (.array reordered) →
    buildDevicePayload decode ipso ts data objVersions =
      buildDevicePayload decode ipso ts data' objVersions

theorem orderFree (one : ∀ fields, Cbor.map fields ∈ records → OneValued fields) :
    OrderFree records := by
  intro reordered decode ipso ts data data' objVersions same first second
  have table := raw_perm one same
  rw [rawOf, rawOf] at table
  rw [buildDevicePayload, buildDevicePayload, first, second]
  dsimp only
  rw [table]

private theorem entryOf_narrowed_iff (readings : List Reading) :
    entryOf (readings.map Reading.narrowed) = entryOf readings ↔ ∀ x ∈ readings, Fits x.value := by
  have flags : (readings.map Reading.narrowed).any (·.isArray) = readings.any (·.isArray) := by
    rw [List.any_map]
    rfl
  have values : (readings.map Reading.narrowed).map (·.value) = readings.map (·.value) ↔
      ∀ x ∈ readings, Fits x.value := by
    rw [List.map_map, List.map_inj_left]
    exact forall₂_congr fun x _ => narrow_eq_iff x.value
  rw [← values]
  cases readings with
  | nil => simp [entryOf]
  | cons x rest =>
    have filled : (x :: rest).map Reading.narrowed ≠ [] := List.cons_ne_nil _ _
    rw [entryOf, entryOf, if_neg filled, if_neg (List.cons_ne_nil x rest), flags, Option.some_inj,
      Prod.mk.injEq, and_iff_left rfl]

/-- **Decoding groups by resolved name, for integers of 64 bits.** Each entry
of the table has exactly the reported values of its resource, whatever the
order of the fields, if and only if every reported integer is one of an
`i64`. -/
theorem groups_iff (one : ∀ fields, Cbor.map fields ∈ records → OneValued fields) :
    Grouped records ∧ OrderFree records ↔ ∀ x ∈ reports records, Fits x.value := by
  rw [and_iff_left (orderFree one)]
  constructor
  · intro grouped x member
    have entry := grouped x.object x.inst x.resource
    rw [cellAt_raw, entryOf_narrowed_iff] at entry
    exact entry x (List.mem_filter.mpr ⟨member, decide_eq_true ⟨rfl, rfl, rfl⟩⟩)
  · intro fit object inst resource
    rw [cellAt_raw, entryOf_narrowed_iff]
    exact fun x member => fit x (List.mem_of_mem_filter member)

/-- The first record names the resources, the second only the last of them. -/
def doorRecords : List Cbor :=
  [.map [(.integer 2, .integer 1), (.integer (-2), .text "/3200/0/"), (.integer 0, .text "5500")],
   .map [(.integer 0, .text "5501/3"), (.integer 2, .integer 7)]]

private theorem oneValued_doors (fields : List (Cbor × Cbor)) (member : Cbor.map fields ∈ doorRecords) :
    OneValued fields := by
  simp only [doorRecords, List.mem_cons, Cbor.map.injEq, List.not_mem_nil, or_false] at member
  rcases member with rfl | rfl <;> exact ⟨by simp, by decide⟩

theorem groups_iff_doors :
    cellAt (rawOf doorRecords) 3200 0 5500 = some ([.int 1], false) ∧
      cellAt (rawOf doorRecords) 3200 0 5501 = some ([.int 7], true) := by
  have fit : ∀ x ∈ reports doorRecords, Fits x.value := by
    have read : reports doorRecords =
        [⟨3200, 0, 5500, false, .int 1⟩, ⟨3200, 0, 5501, true, .int 7⟩] := by decide
    simp [read, Fits]
  obtain ⟨grouped, -⟩ := (groups_iff oneValued_doors).mpr fit
  rw [grouped, grouped]
  decide

/-- An integer of the upper half of 64 bits comes out negative. -/
theorem groups_large :
    ∃ records : List Cbor, (∀ fields, Cbor.map fields ∈ records → OneValued fields) ∧
      cellAt (rawOf records) 3 0 1 = some ([.int (-2 ^ 63)], false) ∧
      entryOf (reportsFor 3 0 1 records) = some ([.int (2 ^ 63)], false) ∧ ¬ Grouped records := by
  refine ⟨[.map [(.integer 0, .text "/3/0/1"), (.integer 2, .integer (2 ^ 63))]], ?_, by decide,
    by decide, fun grouped => absurd (grouped 3 0 1) (by decide)⟩
  intro fields member
  cases Cbor.map.inj (List.mem_singleton.mp member)
  exact ⟨by simp, by decide⟩

end Lwm2mServer.SenmlRecords
