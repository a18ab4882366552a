import Mathlib.Algebra.Group.Nat.Defs
import Mathlib.Data.List.Basic

/-! JSON values as `serde_json` holds them: an object is a map with unique
keys kept in key order, so two equal objects have equal field lists. Floats are
carried as their 64 bits; nothing here computes with them. -/
namespace Lwm2mServer

inductive Json where
  | null
  | bool (value : Bool)
  | int (value : Int)
  | float (bits : UInt64)
  | str (value : String)
  | arr (items : List Json)
  | obj (fields : List (String × Json))

namespace Json

def isObject : Json → Bool
  | .obj _ => true
  | _ => false

/-- `Map::get`. -/
def field (key : String) : List (String × Json) → Option Json
  | [] => none
  | (name, value) :: rest => if name = key then some value else field key rest

/-- `value[key]`: null when the value is no object or has no such field. -/
def get (key : String) : Json → Json
  | .obj fields => (field key fields).getD .null
  | _ => .null

/-- `Value::as_str`. -/
def asStr : Json → Option String
  | .str value => some value
  | _ => none

/-- `Value::as_u64`. -/
def asU64 : Json → Option Nat
  | .int value => if 0 ≤ value ∧ value.toNat < 2 ^ 64 then some value.toNat else none
  | _ => none

/-- `Value::as_array`. -/
def asArray : Json → Option (List Json)
  | .arr items => some items
  | _ => none

/-- `Map::insert`: the value under a key is replaced, a new key goes to its
place in the order. -/
def setField (key : String) (value : Json) : List (String × Json) → List (String × Json)
  | [] => [(key, value)]
  | (name, held) :: rest =>
    if name = key then (key, value) :: rest
    else if key < name then (key, value) :: (name, held) :: rest
    else (name, held) :: setField key value rest

/-- `json!({..})`. -/
def object (fields : List (String × Json)) : Json :=
  .obj (fields.foldl (fun acc entry => setField entry.1 entry.2 acc) [])

mutual
/-- `registry.rs::json_merge`: a source that is no object changes nothing, and
neither does merging into something that is no object. -/
def merge (target : Json) : Json → Json
  | .obj source => match target with
    | .obj fields => .obj (mergeFields fields source)
    | other => other
  | _ => target
/-- The loop over the source's entries. `entry(k).or_insert(Null)` reads the
field that is there, or null. -/
def mergeFields (fields : List (String × Json)) : List (String × Json) → List (String × Json)
  | [] => fields
  | (key, value) :: rest =>
    let entry := (field key fields).getD .null
    mergeFields
      (setField key (if entry.isObject && value.isObject then merge entry value else value) fields)
      rest
end

theorem field_setField (key probe : String) (value : Json) (fields : List (String × Json)) :
    field probe (setField key value fields) = if probe = key then some value else field probe fields := by
  induction fields with
  | nil => simp only [setField, field, eq_comm]
  | cons entry rest ih =>
    obtain ⟨name, held⟩ := entry
    simp only [setField]
    by_cases same : name = key
    · subst same
      simp only [if_true, field]
      by_cases here : name = probe
      · simp [here]
      · simp [here, Ne.symm here]
    · rw [if_neg same]
      split
      · simp only [field, eq_comm]
      · simp only [field, ih]
        by_cases here : name = probe
        · subst here
          simp [same]
        · simp [here]

end Json
end Lwm2mServer
