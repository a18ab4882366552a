import Lwm2mServer.JsonMerge
import Lwm2mServer.Registry

/-! `json_merge` as an operation on states: what it leaves is decided key by
key, so the order in which a source's entries are visited plays no part, a
source merged again changes nothing, and compatible sources commute. Two
objects in key order with the same value under every key are equal, which
turns each of these into a statement about one key and an induction on the
source. -/
namespace Lwm2mServer.Json

/-- A value as serde_json can hold it: the keys of every object in it, at any
depth, stand in strict order. -/
inductive WellFormed : Json → Prop
  | null : WellFormed .null
  | bool (value : Bool) : WellFormed (.bool value)
  | int (value : Int) : WellFormed (.int value)
  | float (bits : UInt64) : WellFormed (.float bits)
  | str (value : String) : WellFormed (.str value)
  | arr {items : List Json} (each : ∀ item ∈ items, WellFormed item) : WellFormed (.arr items)
  | obj {fields : List (String × Json)} (ordered : (fields.map Prod.fst).Pairwise (· < ·))
      (each : ∀ entry ∈ fields, WellFormed entry.2) : WellFormed (.obj fields)

/-- Some visit of the entries `order`: they are merged one by one, and for
every object met below the entries of the source are visited in an order of
their own. -/
inductive Visits : List (String × Json) → List (String × Json) → List (String × Json) → Prop
  | done (fields : List (String × Json)) : Visits fields [] fields
  | override {fields rest merged : List (String × Json)} {key : String} {value : Json}
      (kinds : (((field key fields).getD .null).isObject && value.isObject) = false)
      (later : Visits (setField key value fields) rest merged) :
      Visits fields ((key, value) :: rest) merged
  | deeper {fields rest merged inner source order innerMerged : List (String × Json)} {key : String}
      (held : field key fields = some (.obj inner)) (same : order.Perm source)
      (within : Visits inner order innerMerged)
      (later : Visits (setField key (.obj innerMerged) fields) rest merged) :
      Visits fields ((key, .obj source) :: rest) merged

/-- At every key two sources share, both have objects, compatible in turn, or
the values are equal. -/
inductive Compatible : Json → Json → Prop
  | intro {v w : Json}
      (objects : ∀ key a b, v.child key = some a → w.child key = some b → a ≠ b →
        a.isObject ∧ b.isObject)
      (deeper : ∀ key a b, v.child key = some a → w.child key = some b → a ≠ b →
        Compatible a b) : Compatible v w

variable {fields source other order merged : List (String × Json)} {key : String}
  {value target s v w : Json}

/-! ## Objects in key order -/

theorem WellFormed.ordered (wellFormed : v.WellFormed) : v.Ordered := by
  cases wellFormed with
  | obj ordered each => exact ordered
  | _ => trivial

theorem WellFormed.child (wellFormed : v.WellFormed) (found : v.child key = some value) :
    value.WellFormed := by
  cases wellFormed with
  | obj ordered each => exact each _ (mem_of_field found)
  | _ => cases found

theorem isObject_of_child (found : v.child key = some value) : v.isObject := by
  cases v with
  | obj fields => rfl
  | _ => cases found

theorem field_of_mem (nodup : (fields.map Prod.fst).Nodup) (member : (key, value) ∈ fields) :
    field key fields = some value := by
  induction fields with
  | nil => cases member
  | cons entry rest ih =>
    rw [List.map_cons, List.nodup_cons] at nodup
    rcases List.mem_cons.mp member with rfl | later
    · rw [field, if_pos rfl]
    · have other : entry.1 ≠ key := fun same =>
        nodup.1 (same ▸ List.mem_map_of_mem (f := Prod.fst) later)
      rw [field, if_neg other]
      exact ih nodup.2 later

/-- A lookup does not see the order of entries with different keys. -/
theorem field_perm (nodup : (source.map Prod.fst).Nodup) (same : order.Perm source) :
    field key order = field key source := by
  have nodupOrder : (order.map Prod.fst).Nodup := (same.map Prod.fst).nodup_iff.mpr nodup
  cases found : field key source with
  | some value => exact field_of_mem nodupOrder (same.mem_iff.mpr (mem_of_field found))
  | none =>
    cases held : field key order with
    | none => rfl
    | some value =>
      have present := field_of_mem nodup (same.mem_iff.mp (mem_of_field held))
      rw [found] at present
      cases present

private theorem head_key_le {name : String} {held : Json} {rest others : List (String × Json)}
    (ordered : (((name, held) :: rest).map Prod.fst).Pairwise (· < ·))
    (agree : ∀ key, field key others = field key ((name, held) :: rest)) {other : String}
    {kept : Json} {tail : List (String × Json)} (shape : others = (other, kept) :: tail) :
    ¬ other < name := by
  intro before
  have present : field other ((name, held) :: rest) = some kept := by
    rw [← agree, shape, field, if_pos rfl]
  rw [List.map_cons, List.pairwise_cons] at ordered
  rcases List.mem_cons.mp (mem_of_field present) with here | later
  · exact String.lt_irrefl name ((Prod.mk.inj here).1 ▸ before)
  · exact String.lt_irrefl other (String.lt_trans before
      (ordered.1 other (List.mem_map.mpr ⟨(other, kept), later, rfl⟩)))

/-- Fields in key order are determined by what is under each key. -/
theorem ordered_ext (ordered : (fields.map Prod.fst).Pairwise (· < ·))
    (orderedOther : (other.map Prod.fst).Pairwise (· < ·))
    (agree : ∀ key, field key fields = field key other) : fields = other := by
  induction fields generalizing other with
  | nil =>
    cases other with
    | nil => rfl
    | cons entry rest =>
      obtain ⟨name, held⟩ := entry
      have found := agree name
      simp [field] at found
  | cons entry rest ih =>
    obtain ⟨name, held⟩ := entry
    cases other with
    | nil =>
      have found := agree name
      simp [field] at found
    | cons entry' rest' =>
      obtain ⟨name', held'⟩ := entry'
      obtain rfl : name = name' := Std.le_antisymm
        (String.not_lt.mp (head_key_le ordered (fun key => (agree key).symm) rfl))
        (String.not_lt.mp (head_key_le orderedOther agree rfl))
      have first := agree name
      rw [field, if_pos rfl, field, if_pos rfl] at first
      cases first
      rw [List.map_cons, List.pairwise_cons] at ordered orderedOther
      congr 1
      refine ih ordered.2 orderedOther.2 fun key => ?_
      by_cases same : name = key
      · subst same
        rw [field_none_of_notMem fun member => String.lt_irrefl name (ordered.1 name member),
          field_none_of_notMem fun member => String.lt_irrefl name (orderedOther.1 name member)]
      · have found := agree key
        rwa [field, if_neg same, field, if_neg same] at found

/-- Two objects with the same value under every key are equal. -/
theorem eq_of_child (wellFormed : v.WellFormed) (wellFormedOther : w.WellFormed)
    (object : v.isObject) (objectOther : w.isObject) (agree : ∀ key, v.child key = w.child key) :
    v = w := by
  cases wellFormed with
  | obj ordered each =>
    cases wellFormedOther with
    | obj orderedOther eachOther => exact congrArg Json.obj (ordered_ext ordered orderedOther agree)
    | _ => cases objectOther
  | _ => cases object

/-! ## What a merge keeps -/

private theorem mem_setField {entry : String × Json} (member : entry ∈ setField key value fields) :
    entry = (key, value) ∨ entry ∈ fields := by
  induction fields with
  | nil => exact Or.inl (List.mem_singleton.mp member)
  | cons held rest ih =>
    obtain ⟨name, old⟩ := held
    simp only [setField] at member
    split at member
    · exact (List.mem_cons.mp member).imp_right (List.mem_cons_of_mem _)
    · split at member
      · exact List.mem_cons.mp member
      · rcases List.mem_cons.mp member with here | later
        · exact Or.inr (here ▸ List.mem_cons_self)
        · exact (ih later).imp_right (List.mem_cons_of_mem _)

theorem WellFormed.setField (wellFormed : (Json.obj fields).WellFormed) (inserted : value.WellFormed) :
    (Json.obj (setField key value fields)).WellFormed := by
  cases wellFormed with
  | obj ordered each =>
    refine .obj (ordered_setField ordered) fun entry member => ?_
    rcases mem_setField member with rfl | held
    · exact inserted
    · exact each entry held

/-- What is under a key, null if nothing is, is well formed. -/
theorem WellFormed.entry (wellFormed : (Json.obj fields).WellFormed) :
    ((field key fields).getD .null).WellFormed := by
  cases found : field key fields with
  | none => exact .null
  | some value => exact wellFormed.child found

private theorem wellFormed_mergeFields (each : ∀ entry ∈ source, entry.2.WellFormed)
    (below : ∀ entry ∈ source, ∀ target : Json, target.WellFormed →
      (target.merge entry.2).WellFormed)
    (wellFormed : (Json.obj fields).WellFormed) :
    (Json.obj (mergeFields fields source)).WellFormed := by
  induction source generalizing fields with
  | nil => exact wellFormed
  | cons entry rest ih =>
    obtain ⟨key, value⟩ := entry
    rw [mergeFields]
    refine ih (fun entry member => each entry (List.mem_cons_of_mem _ member))
      (fun entry member => below entry (List.mem_cons_of_mem _ member)) (wellFormed.setField ?_)
    split
    · exact below (key, value) List.mem_cons_self _ wellFormed.entry
    · exact each (key, value) List.mem_cons_self

theorem merge_of_target (target : v.isObject = false) : v.merge s = v := by
  cases s with
  | obj source =>
    cases v with
    | obj fields => cases target
    | _ => simp [merge]
  | _ => simp [merge]

theorem merge_of_source (source : s.isObject = false) : v.merge s = v := by
  cases s with
  | obj fields => cases source
  | _ => simp [merge]

theorem WellFormed.merge (source : s.WellFormed) (target : v.WellFormed) :
    (v.merge s).WellFormed := by
  induction source generalizing v with
  | obj ordered each below =>
    cases v with
    | obj fields =>
      rw [Json.merge]
      exact wellFormed_mergeFields each (fun entry member target wf => below entry member wf) target
    | _ => rwa [merge_of_target rfl]
  | _ => rwa [merge_of_source rfl]

/-! ## Visiting order -/

theorem ordered_mergeFields (ordered : (fields.map Prod.fst).Pairwise (· < ·)) :
    ((mergeFields fields source).map Prod.fst).Pairwise (· < ·) := by
  induction source generalizing fields with
  | nil => exact ordered
  | cons entry rest ih =>
    rw [mergeFields]
    exact ih (ordered_setField ordered)

/-- Entries merged in another order leave the same fields. -/
theorem mergeFields_perm (ordered : (fields.map Prod.fst).Pairwise (· < ·))
    (nodup : (source.map Prod.fst).Nodup) (same : order.Perm source) :
    mergeFields fields order = mergeFields fields source := by
  refine ordered_ext (ordered_mergeFields ordered) (ordered_mergeFields ordered) fun key => ?_
  have nodupOrder : (order.map Prod.fst).Nodup := (same.map Prod.fst).nodup_iff.mpr nodup
  rw [field_mergeFields nodup, field_mergeFields nodupOrder, field_perm nodup same]

private theorem visits_mergeFields (visits : Visits fields order merged)
    (nodup : (order.map Prod.fst).Nodup) (each : ∀ entry ∈ order, entry.2.WellFormed)
    (wellFormed : (Json.obj fields).WellFormed) : merged = mergeFields fields order := by
  induction visits with
  | done fields => rfl
  | @override fields rest merged key value kinds later ih =>
    rw [List.map_cons, List.nodup_cons] at nodup
    rw [mergeFields, kinds]
    exact ih nodup.2 (fun entry member => each entry (List.mem_cons_of_mem _ member))
      (wellFormed.setField (each (key, value) List.mem_cons_self))
  | @deeper fields rest merged inner source order innerMerged key held same within later ihWithin
      ihLater =>
    rw [List.map_cons, List.nodup_cons] at nodup
    have sourceWf : (Json.obj source).WellFormed := each (key, .obj source) List.mem_cons_self
    have innerWf : (Json.obj inner).WellFormed := wellFormed.child held
    have sourceNodup : (source.map Prod.fst).Nodup := nodup_of_ordered sourceWf.ordered
    have merged : Json.obj innerMerged = (Json.obj inner).merge (.obj source) := by
      rw [merge, ← mergeFields_perm innerWf.ordered sourceNodup same]
      refine congrArg Json.obj (ihWithin ((same.map Prod.fst).nodup_iff.mpr sourceNodup) ?_ innerWf)
      intro entry member
      exact sourceWf.child (field_of_mem sourceNodup (same.mem_iff.mp member))
    have entered : ((((field key fields).getD .null).isObject && (Json.obj source).isObject)) = true := by
      rw [held]
      rfl
    rw [mergeFields, entered, if_pos rfl, held, Option.getD_some, ← merged]
    exact ihLater nodup.2 (fun entry member => each entry (List.mem_cons_of_mem _ member))
      (wellFormed.setField (merged ▸ sourceWf.merge innerWf))

private theorem visits_each (below : ∀ entry ∈ order, ∀ source, entry.2 = .obj source →
      ∀ inner, Visits inner source (mergeFields inner source)) :
    Visits fields order (mergeFields fields order) := by
  induction order generalizing fields with
  | nil => exact .done fields
  | cons entry rest ih =>
    obtain ⟨key, value⟩ := entry
    have later (kept : List (String × Json)) : Visits kept rest (mergeFields kept rest) :=
      ih fun entry member => below entry (List.mem_cons_of_mem _ member)
    rw [mergeFields]
    cases kinds : ((field key fields).getD .null).isObject && value.isObject with
    | false => exact .override kinds (later _)
    | true =>
      rw [Bool.and_eq_true] at kinds
      cases value with
      | obj source =>
        cases held : field key fields with
        | none => simp [held, isObject] at kinds
        | some entry =>
          cases entry with
          | obj inner =>
            rw [if_pos rfl, Option.getD_some, merge]
            exact .deeper held (List.Perm.refl source)
              (below (key, .obj source) List.mem_cons_self source rfl inner) (later _)
          | _ => simp [held, isObject] at kinds
      | _ => simp [isObject] at kinds

private theorem visits_below (wellFormed : v.WellFormed) :
    ∀ source, v = .obj source → ∀ fields, Visits fields source (mergeFields fields source) := by
  induction wellFormed with
  | obj ordered each below =>
    rintro source ⟨⟩ fields
    exact visits_each below
  | _ =>
    rintro source ⟨⟩

/-- **Every visit leaves what the merge leaves**, whatever order it takes at
any depth, and every order can be taken. -/
theorem visits_iff (wellFormed : (Json.obj fields).WellFormed)
    (sourceWellFormed : (Json.obj source).WellFormed) (same : order.Perm source) :
    Visits fields order merged ↔ Json.obj merged = (Json.obj fields).merge (.obj source) := by
  have nodup : (source.map Prod.fst).Nodup := nodup_of_ordered sourceWellFormed.ordered
  have each (entry : String × Json) (member : entry ∈ order) : entry.2.WellFormed :=
    sourceWellFormed.child (field_of_mem nodup (same.mem_iff.mp member))
  rw [merge, ← mergeFields_perm wellFormed.ordered nodup same, Json.obj.injEq]
  constructor
  · intro visits
    exact visits_mergeFields visits ((same.map Prod.fst).nodup_iff.mpr nodup) each wellFormed
  · rintro rfl
    exact visits_each fun entry member => visits_below (each entry member)

/-! ## Laws -/

theorem mergeEntry_not_object {entry : Option Json} (kind : value.isObject = false) :
    mergeEntry entry value = value := by
  simp [mergeEntry, kind]

theorem mergeEntry_fresh {entry : Option Json} (kind : (entry.getD .null).isObject = false) :
    mergeEntry entry value = value := by
  simp [mergeEntry, kind]

private theorem mergeEntry_object {entry : Option Json} (object : (entry.getD .null).isObject)
    (source : value.isObject) : mergeEntry entry value = (entry.getD .null).merge value := by
  simp [mergeEntry, object, source]

/-- A source merged into itself is itself. -/
theorem merge_self (wellFormed : s.WellFormed) : s.merge s = s := by
  induction wellFormed with
  | @obj fields ordered each below =>
    have wf : (Json.obj fields).WellFormed := .obj ordered each
    refine eq_of_child (wf.merge wf) wf (isObject_merge _ _) rfl fun key => ?_
    rw [child_merge rfl rfl wf.ordered]
    cases found : (Json.obj fields).child key with
    | none => rfl
    | some value =>
      have same : value.merge value = value := below (key, value) (mem_of_field found)
      cases kind : value.isObject with
      | false => rw [Option.map_some, mergeEntry_not_object kind, Option.some_or]
      | true => rw [Option.map_some, mergeEntry_some kind kind, same, Option.some_or]
  | _ => exact merge_of_source rfl

private theorem mergeEntry_again {entry : Option Json} (wellFormed : value.WellFormed)
    (again : ((entry.getD .null).merge value).merge value = (entry.getD .null).merge value) :
    mergeEntry (some (mergeEntry entry value)) value = mergeEntry entry value := by
  cases kind : value.isObject with
  | false => rw [mergeEntry_not_object kind, mergeEntry_not_object kind]
  | true =>
    cases held : (entry.getD .null).isObject with
    | false => rw [mergeEntry_fresh held, mergeEntry_some kind kind, merge_self wellFormed]
    | true =>
      rw [mergeEntry_object held kind, mergeEntry_some ((isObject_merge _ _).trans held) kind, again]

/-- **Merging again changes nothing.** -/
theorem merge_again (source : s.WellFormed) (target : v.WellFormed) :
    (v.merge s).merge s = v.merge s := by
  induction source generalizing v with
  | @obj fields ordered each below =>
    have wf : (Json.obj fields).WellFormed := .obj ordered each
    cases object : v.isObject with
    | false => rw [merge_of_target object, merge_of_target object]
    | true =>
      have merged : (v.merge (.obj fields)).isObject := (isObject_merge _ _).trans object
      have mergedWf := wf.merge target
      refine eq_of_child (wf.merge mergedWf) mergedWf ((isObject_merge _ _).trans merged) merged
        fun key => ?_
      rw [child_merge merged rfl wf.ordered, child_merge object rfl wf.ordered]
      cases found : (Json.obj fields).child key with
      | none => rfl
      | some value =>
        have entryWf : ((v.child key).getD .null).WellFormed := by
          cases held : v.child key with
          | none => exact .null
          | some entry => exact target.child held
        have again : mergeEntry (some (mergeEntry (v.child key) value)) value =
            mergeEntry (v.child key) value :=
          mergeEntry_again (wf.child found) (below (key, value) (mem_of_field found) entryWf)
        rw [Option.map_some, Option.map_some, Option.some_or, Option.some_or, again]
  | _ => rw [merge_of_source rfl]

/-- Compatible objects merge to the same either way round. -/
theorem merge_comm (compatible : Compatible v w) (first : v.WellFormed) (second : w.WellFormed)
    (object : v.isObject) (objectOther : w.isObject) : v.merge w = w.merge v := by
  induction compatible with
  | @intro v w objects deeper ih =>
    refine eq_of_child (second.merge first) (first.merge second) ((isObject_merge _ _).trans object)
      ((isObject_merge _ _).trans objectOther) fun key => ?_
    rw [child_merge object objectOther second.ordered, child_merge objectOther object first.ordered]
    cases here : v.child key with
    | none =>
      cases there : w.child key with
      | none => rfl
      | some b => rw [Option.map_some, mergeEntry_none, Option.map_none, Option.none_or,
          Option.some_or]
    | some a =>
      cases there : w.child key with
      | none => rw [Option.map_some, mergeEntry_none, Option.map_none, Option.none_or,
          Option.some_or]
      | some b =>
        by_cases same : a = b
        · rw [same]
        · obtain ⟨kind, kindOther⟩ := objects key a b here there same
          have merged := ih key a b here there same (first.child here) (second.child there) kind
            kindOther
          rw [Option.map_some, Option.map_some, Option.some_or, Option.some_or,
            mergeEntry_some kind kindOther, mergeEntry_some kindOther kind, merged]

private theorem mergeEntry_order {entry : Option Json} {a b : Json} (kind : a.isObject)
    (kindOther : b.isObject) (comm : a.merge b = b.merge a)
    (order : ((entry.getD .null).merge a).merge b = ((entry.getD .null).merge b).merge a) :
    mergeEntry (some (mergeEntry entry a)) b = mergeEntry (some (mergeEntry entry b)) a := by
  cases held : (entry.getD .null).isObject with
  | false =>
    rw [mergeEntry_fresh held, mergeEntry_fresh held, mergeEntry_some kind kindOther,
      mergeEntry_some kindOther kind, comm]
  | true =>
    rw [mergeEntry_object held kind, mergeEntry_object held kindOther,
      mergeEntry_some ((isObject_merge _ _).trans held) kindOther,
      mergeEntry_some ((isObject_merge _ _).trans held) kind, order]

/-- **Compatible sources can be merged in either order.** -/
theorem merge_order (compatible : Compatible v w) (first : v.WellFormed) (second : w.WellFormed)
    (target : s.WellFormed) : (s.merge v).merge w = (s.merge w).merge v := by
  induction compatible generalizing s with
  | @intro v w objects deeper ih =>
    by_cases kinds : s.isObject ∧ v.isObject ∧ w.isObject
    · obtain ⟨held, object, objectOther⟩ := kinds
      have heldFirst : (s.merge v).isObject := (isObject_merge _ _).trans held
      have heldSecond : (s.merge w).isObject := (isObject_merge _ _).trans held
      refine eq_of_child (second.merge (first.merge target)) (first.merge (second.merge target))
        ((isObject_merge _ _).trans heldFirst) ((isObject_merge _ _).trans heldSecond) fun key => ?_
      rw [child_merge heldFirst objectOther second.ordered, child_merge held object first.ordered,
        child_merge heldSecond object first.ordered, child_merge held objectOther second.ordered]
      cases here : v.child key with
      | none =>
        cases there : w.child key with
        | none => rfl
        | some b => simp
      | some a =>
        cases there : w.child key with
        | none => simp
        | some b =>
          simp only [Option.map_some, Option.some_or]
          by_cases same : a = b
          · rw [same]
          · obtain ⟨kind, kindOther⟩ := objects key a b here there same
            have entryWf : ((s.child key).getD .null).WellFormed := by
              cases stored : s.child key with
              | none => exact .null
              | some entry => exact target.child stored
            have comm := merge_comm (deeper key a b here there same) (first.child here)
              (second.child there) kind kindOther
            have order := ih key a b here there same (first.child here) (second.child there) entryWf
            rw [mergeEntry_order kind kindOther comm order]
    · by_cases held : s.isObject
      · by_cases object : v.isObject
        · have missing : w.isObject = false :=
            Bool.eq_false_iff.mpr fun present => kinds ⟨held, object, present⟩
          rw [merge_of_source missing, merge_of_source missing]
        · rw [merge_of_source (Bool.eq_false_iff.mpr object),
            merge_of_source (Bool.eq_false_iff.mpr object)]
      · have missing := Bool.eq_false_iff.mpr held
        rw [merge_of_target missing, merge_of_target missing, merge_of_target missing]

/-- **A merge is recursive override.** -/
theorem merge_override (target : v.WellFormed) (source : s.WellFormed) (object : v.isObject) :
    (s.isObject = false → v.merge s = v) ∧
    (∀ key, s.child key = none → (v.merge s).child key = v.child key) ∧
    (∀ key held value, v.child key = some held → s.child key = some value → held.isObject →
      value.isObject → (v.merge s).child key = some (held.merge value)) ∧
    (∀ key value, s.child key = some value →
      (∀ held, v.child key = some held → ¬(held.isObject ∧ value.isObject)) →
      (v.merge s).child key = some value) ∧
    (∀ fields entries order, v = .obj fields → s = .obj entries → order.Perm entries → ∀ merged,
      Visits fields order merged ↔ Json.obj merged = v.merge s) ∧
    (v.merge s).merge s = v.merge s ∧
    ∀ other, other.WellFormed → Compatible s other →
      (v.merge s).merge other = (v.merge other).merge s := by
  refine ⟨merge_of_source, ?_, ?_, ?_, ?_, merge_again source target, ?_⟩
  · intro key missing
    cases kind : s.isObject with
    | false => rw [merge_of_source kind]
    | true => rw [child_merge object kind source.ordered, missing, Option.map_none, Option.none_or]
  · intro key held value there here kind kindOther
    rw [child_merge object (isObject_of_child here) source.ordered, here, there, Option.map_some,
      Option.some_or, mergeEntry_some kind kindOther]
  · intro key value here apart
    rw [child_merge object (isObject_of_child here) source.ordered, here, Option.map_some,
      Option.some_or, mergeEntry]
    cases there : v.child key with
    | none => simp [isObject]
    | some held =>
      have kinds := apart held there
      rw [← Bool.and_eq_true] at kinds
      rw [Option.getD_some, if_neg kinds]
  · rintro fields entries order rfl rfl same merged
    exact visits_iff target source same
  · intro other wellFormed compatible
    exact merge_order compatible source wellFormed target

theorem merge_override_report :
    ((Json.obj [("3303", .obj [("0", .int 1)])]).merge
      (.obj [("3303", .obj [("1", .int 2)])])).merge (.obj [("3303", .obj [("1", .int 2)])]) =
    .obj [("3303", .obj [("0", .int 1), ("1", .int 2)])] := by
  have leaf (key : String) (value : Int) : (Json.obj [(key, .int value)]).WellFormed :=
    .obj (List.pairwise_singleton _ _) fun entry member =>
      List.mem_singleton.mp member ▸ .int value
  have report (key : String) (value : Int) :
      (Json.obj [("3303", .obj [(key, .int value)])]).WellFormed :=
    .obj (List.pairwise_singleton _ _) fun entry member =>
      List.mem_singleton.mp member ▸ leaf key value
  rw [(merge_override (report "0" 1) (report "1" 2) rfl).2.2.2.2.2.1]
  have added (value : Json) (held : List (String × Json)) :
      setField "1" value (("0", .int 1) :: held) = ("0", .int 1) :: setField "1" value held := by
    rw [setField, if_neg (by decide), if_neg (by decide)]
  have kept (value other : Json) : setField "3303" value [("3303", other)] = [("3303", value)] := by
    rw [setField, if_pos rfl]
  simp [merge, mergeFields, field, isObject, added, kept, setField.eq_1]

/-! ## Reports of a device -/

/-- **Reports of a device add up**: a report taken in again leaves its state,
and two compatible reports leave the same state in either order. -/
theorem mergeDeviceState_reports {r : DeviceRegistry} {addr : SocketAddr} {id : UInt32}
    {dev : Device} (index : r.byAddr.lookup addr = some id) (stored : r.byId.lookup id = some dev)
    (state : dev.state.WellFormed) (report : v.WellFormed) (other : w.WellFormed) :
    ((r.mergeDeviceStateByAddr addr v).bind fun once =>
        once.2.mergeDeviceStateByAddr addr v).map Prod.fst =
      (r.mergeDeviceStateByAddr addr v).map Prod.fst ∧
    (Compatible v w →
      ((r.mergeDeviceStateByAddr addr v).bind fun first =>
        first.2.mergeDeviceStateByAddr addr w).map Prod.fst =
      ((r.mergeDeviceStateByAddr addr w).bind fun first =>
        first.2.mergeDeviceStateByAddr addr v).map Prod.fst) := by
  have taken (p q : Json) : ((r.mergeDeviceStateByAddr addr p).bind fun first =>
      first.2.mergeDeviceStateByAddr addr q).map Prod.fst =
      some ((dev.state.merge p).merge q) := by
    simp [DeviceRegistry.mergeDeviceStateByAddr, DeviceRegistry.putDevice, index, stored]
  constructor
  · rw [taken, merge_again report state]
    simp [DeviceRegistry.mergeDeviceStateByAddr, index, stored]
  · intro compatible
    rw [taken, taken, merge_order compatible report other state]

end Lwm2mServer.Json
