import Lwm2mServer.Json

/-! What `json_merge` leaves at a path. An object built field by field has its
keys in strict order, so a merge visits every key of its source once, and what
it leaves under a key depends on the two values under that key alone. -/
namespace Lwm2mServer.Json

/-- The value under a key of an object. -/
def child (key : String) : Json → Option Json
  | .obj fields => field key fields
  | _ => none

/-- The keys of an object stand in strict order. -/
def Ordered : Json → Prop
  | .obj fields => (fields.map Prod.fst).Pairwise (· < ·)
  | _ => True

/-- What a merge leaves where there was `entry` and the source has `value`. -/
def mergeEntry (entry : Option Json) (value : Json) : Json :=
  if (entry.getD .null).isObject && value.isObject then (entry.getD .null).merge value else value

variable {fields source : List (String × Json)} {key probe : String} {value target : Json}

/-! ## Fields -/

theorem field_none_of_notMem (absent : key ∉ fields.map Prod.fst) : field key fields = none := by
  induction fields with
  | nil => rfl
  | cons entry rest ih =>
    rw [List.map_cons, List.mem_cons, not_or] at absent
    rw [field, if_neg (Ne.symm absent.1), ih absent.2]

theorem mem_of_field (found : field key fields = some value) : (key, value) ∈ fields := by
  induction fields with
  | nil => cases found
  | cons entry rest ih =>
    obtain ⟨name, held⟩ := entry
    rw [field] at found
    split at found
    · rename_i same
      cases found
      exact same ▸ List.mem_cons_self
    · exact List.mem_cons_of_mem _ (ih found)

private theorem keys_setField :
    probe ∈ (setField key value fields).map Prod.fst → probe = key ∨ probe ∈ fields.map Prod.fst := by
  induction fields with
  | nil => simp [setField]
  | cons entry rest ih =>
    obtain ⟨name, held⟩ := entry
    simp only [setField]
    split
    · rename_i same
      simp [same]
    · split
      · simp
      · simp only [List.map_cons, List.mem_cons]
        rintro (here | later)
        · exact Or.inr (Or.inl here)
        · exact (ih later).imp_right Or.inr

/-- Setting a field keeps the keys in order. -/
theorem ordered_setField (ordered : (fields.map Prod.fst).Pairwise (· < ·)) :
    ((setField key value fields).map Prod.fst).Pairwise (· < ·) := by
  induction fields with
  | nil => simp [setField]
  | cons entry rest ih =>
    obtain ⟨name, held⟩ := entry
    rw [List.map_cons, List.pairwise_cons] at ordered
    obtain ⟨least, ordered⟩ := ordered
    simp only [setField]
    split
    · rename_i same
      rw [List.map_cons, List.pairwise_cons]
      exact ⟨same ▸ least, ordered⟩
    · rename_i other
      split
      · rename_i before
        simp only [List.map_cons, List.pairwise_cons, List.mem_cons]
        refine ⟨?_, least, ordered⟩
        rintro later (rfl | member)
        · exact before
        · exact String.lt_trans before (least later member)
      · rename_i after
        have follows : name < key := Std.lt_of_le_of_ne (String.not_lt.mp after) other
        rw [List.map_cons, List.pairwise_cons]
        refine ⟨fun later member => ?_, ih ordered⟩
        rcases keys_setField member with rfl | inside
        · exact follows
        · exact least later inside

private theorem ordered_setFields (entries : List (String × Json))
    (ordered : (fields.map Prod.fst).Pairwise (· < ·)) :
    ((entries.foldl (fun acc entry => setField entry.1 entry.2 acc) fields).map Prod.fst).Pairwise
      (· < ·) := by
  induction entries generalizing fields with
  | nil => exact ordered
  | cons entry rest ih => exact ih (ordered_setField ordered)

theorem ordered_object (entries : List (String × Json)) : (object entries).Ordered :=
  ordered_setFields entries List.Pairwise.nil

private theorem mem_of_setFields (entries : List (String × Json))
    (found : field key (entries.foldl (fun acc entry => setField entry.1 entry.2 acc) fields) =
      some value) : field key fields = some value ∨ (key, value) ∈ entries := by
  induction entries generalizing fields with
  | nil => exact Or.inl found
  | cons entry rest ih =>
    rcases ih found with before | inside
    · rw [field_setField] at before
      split at before
      · rename_i same
        cases before
        exact Or.inr (same ▸ List.mem_cons_self)
      · exact Or.inl before
    · exact Or.inr (List.mem_cons_of_mem _ inside)

/-- A field of a built object is one of those it was built from. -/
theorem mem_of_child_object {entries : List (String × Json)}
    (found : (object entries).child key = some value) : (key, value) ∈ entries :=
  (mem_of_setFields entries found).resolve_left (by simp [field])

private theorem isSome_setFields (entries : List (String × Json))
    (there : (field key fields).isSome ∨ key ∈ entries.map Prod.fst) :
    (field key (entries.foldl (fun acc entry => setField entry.1 entry.2 acc) fields)).isSome := by
  induction entries generalizing fields with
  | nil => simpa using there
  | cons entry rest ih =>
    refine ih ?_
    rw [field_setField]
    by_cases same : key = entry.1
    · exact Or.inl (by rw [if_pos same]; rfl)
    · rw [if_neg same]
      refine there.imp id fun member => ?_
      rw [List.map_cons, List.mem_cons] at member
      exact member.resolve_left same

/-- A field that an object is built with is there, maybe with the value of
another entry for it. -/
theorem child_object {entries : List (String × Json)}
    (member : (key, value) ∈ entries) :
    ∃ found, (object entries).child key = some found ∧ (key, found) ∈ entries := by
  obtain ⟨found, held⟩ := Option.isSome_iff_exists.mp
    (@isSome_setFields [] key entries (Or.inr (List.mem_map_of_mem member)))
  exact ⟨found, held, mem_of_child_object held⟩

theorem child_object_append (entries : List (String × Json)) (entry : String × Json) :
    (object (entries ++ [entry])).child key =
      if key = entry.1 then some entry.2 else (object entries).child key := by
  rw [object, List.foldl_append]
  exact field_setField ..

/-! ## Merging -/

theorem isObject_merge (target value : Json) : (target.merge value).isObject = target.isObject := by
  cases value with
  | obj source =>
    cases target with
    | obj fields => simp [merge, isObject]
    | _ => simp [merge]
  | _ => simp [merge]

theorem nodup_of_ordered (ordered : (fields.map Prod.fst).Pairwise (· < ·)) :
    (fields.map Prod.fst).Nodup := by
  refine ordered.imp fun {name later} before => ?_
  rintro rfl
  exact String.lt_irrefl name before

/-- What a merge of entries with different keys leaves under a key. -/
theorem field_mergeFields (nodup : (source.map Prod.fst).Nodup) :
    field probe (mergeFields fields source) =
      ((field probe source).map (mergeEntry (field probe fields))).or (field probe fields) := by
  induction source generalizing fields with
  | nil => simp [mergeFields, field]
  | cons entry rest ih =>
    obtain ⟨key, value⟩ := entry
    rw [List.map_cons, List.nodup_cons] at nodup
    rw [mergeFields, ih nodup.2, field_setField]
    by_cases same : probe = key
    · subst same
      have once : field probe rest = none := field_none_of_notMem nodup.1
      simp [once, field, mergeEntry]
    · simp [field, same, Ne.symm same]

/-- What a merge leaves under a key. -/
theorem child_merge (object : target.isObject) (source : value.isObject) (ordered : value.Ordered) :
    (target.merge value).child key =
      ((value.child key).map (mergeEntry (target.child key))).or (target.child key) := by
  cases target with
  | obj fields =>
    cases value with
    | obj source =>
      rw [merge, child]
      exact field_mergeFields (nodup_of_ordered ordered)
    | _ => cases source
  | _ => cases object

theorem mergeEntry_none (value : Json) : mergeEntry none value = value := by
  simp [mergeEntry, isObject]

theorem mergeEntry_some (object : target.isObject) (source : value.isObject) :
    mergeEntry (some target) value = target.merge value := by
  simp [mergeEntry, object, source]

end Lwm2mServer.Json
