import Mathlib.Data.List.AList

/-! Finite tables: the association lists of Mathlib with one value type, and
the bulk operations a hash map offers over its values. A table is read only
through `lookup`, so every operation is characterised by what a later `lookup`
returns; the order of the entries is never used. -/
namespace Library

/-- A finite map. Keys are unique by construction (`AList.nodupKeys`). -/
abbrev Table (K V : Type) := AList (fun _ : K => V)

namespace Table
variable {K V W : Type} [DecidableEq K]

theorem lookup_insert_if (table : Table K V) (key probe : K) (value : V) :
    (AList.insert key value table).lookup probe =
      if probe = key then some value else table.lookup probe := by
  by_cases same : probe = key
  · subst probe
    rw [if_pos rfl, AList.lookup_insert]
  · rw [if_neg same, AList.lookup_insert_ne same]

theorem lookup_erase_if (table : Table K V) (key probe : K) :
    (AList.erase key table).lookup probe = if probe = key then none else table.lookup probe := by
  by_cases same : probe = key
  · subst probe
    rw [if_pos rfl, AList.lookup_erase]
  · rw [if_neg same, AList.lookup_erase_ne same]

theorem lookup_of_erase {table : Table K V} {key probe : K} {value : V}
    (kept : (AList.erase key table).lookup probe = some value) : table.lookup probe = some value := by
  rw [lookup_erase_if] at kept
  split at kept
  · cases kept
  · exact kept

theorem insert_erase (table : Table K V) (key : K) (value : V) :
    AList.insert key value (AList.erase key table) = AList.insert key value table := by
  apply AList.ext
  rw [AList.entries_insert, AList.entries_insert]
  congr 1
  exact List.kerase_of_notMem_keys (List.notMem_keys_kerase key table.nodupKeys)

/-- Every value is replaced by a function of its key and itself. -/
def mapVals (change : K → V → W) (table : Table K V) : Table K W :=
  ⟨table.entries.map (Sigma.map id change), table.nodupKeys.map₂ change table.entries⟩

theorem lookup_mapVals (change : K → V → W) (table : Table K V) (key : K) :
    (mapVals change table).lookup key = (table.lookup key).map (change key) := by
  obtain ⟨entries, unique⟩ := table
  simp only [mapVals, AList.lookup]
  clear unique
  induction entries with
  | nil => rfl
  | cons entry rest ih =>
    obtain ⟨other, value⟩ := entry
    by_cases same : key = other
    · subst other
      simp [Sigma.map]
    · simpa [Sigma.map, List.dlookup_cons_ne, same] using ih

/-- The entries that satisfy a test on key and value. -/
def filterVals (keep : K → V → Bool) (table : Table K V) : Table K V :=
  ⟨table.entries.filter (fun entry => keep entry.1 entry.2),
    table.nodupKeys.sublist List.filter_sublist⟩

/-- The values, in no particular order. -/
def values (table : Table K V) : List V := table.entries.map (·.2)

theorem mem_values {table : Table K V} {value : V} :
    value ∈ table.values ↔ ∃ key, table.lookup key = some value := by
  simp only [values, List.mem_map]
  constructor
  · rintro ⟨⟨key, held⟩, member, rfl⟩
    exact ⟨key, AList.mem_lookup_iff.mpr member⟩
  · rintro ⟨key, found⟩
    exact ⟨⟨key, value⟩, AList.mem_lookup_iff.mp found, rfl⟩

theorem values_insert (table : Table K V) (key : K) (value : V) :
    values (AList.insert key value table) = value :: values (AList.erase key table) := by
  rw [values, AList.entries_insert]
  rfl

/-- Taking an entry out takes one value out. -/
theorem values_perm_erase {table : Table K V} {key : K} {value : V}
    (found : table.lookup key = some value) :
    table.values.Perm (value :: values (AList.erase key table)) := by
  have member : key ∈ table.keys := AList.lookup_isSome.mp (by rw [found]; rfl)
  obtain ⟨held, front, back, _, split, erased⟩ := List.exists_of_kerase member
  have same : held = value := by
    have stored : (⟨key, held⟩ : Sigma fun _ : K => V) ∈ table.entries := by
      rw [split]
      exact List.mem_append_right front List.mem_cons_self
    have looked := AList.mem_lookup_iff.mpr stored
    rw [found] at looked
    exact (Option.some.inj looked).symm
  have rest : (AList.erase key table).entries = front ++ back := erased
  rw [values, values, split, rest, List.map_append, List.map_append, List.map_cons, same]
  exact List.perm_middle

theorem erase_of_lookup_none {table : Table K V} {key : K} (missing : table.lookup key = none) :
    AList.erase key table = table := by
  apply AList.ext
  exact List.kerase_of_notMem_keys (AList.lookup_eq_none.mp missing)

omit [DecidableEq K] in
theorem values_mapVals (change : V → W) (table : Table K V) :
    (mapVals (fun _ => change) table).values = table.values.map change := by
  simp [values, mapVals, Sigma.map, Function.comp_def]

omit [DecidableEq K] in
theorem values_filterVals (keep : V → Bool) (table : Table K V) :
    (filterVals (fun _ => keep) table).values = table.values.filter keep := by
  simp [values, filterVals, List.filter_map, Function.comp_def]

theorem lookup_of_filterVals {keep : K → V → Bool} {table : Table K V} {key : K} {value : V}
    (found : (filterVals keep table).lookup key = some value) : table.lookup key = some value := by
  have member : (⟨key, value⟩ : Sigma fun _ : K => V) ∈ (filterVals keep table).entries :=
    AList.mem_lookup_iff.mp found
  exact AList.mem_lookup_iff.mpr (List.mem_of_mem_filter member)

theorem keep_of_filterVals {keep : K → V → Bool} {table : Table K V} {key : K} {value : V}
    (found : (filterVals keep table).lookup key = some value) : keep key value = true := by
  have member : (⟨key, value⟩ : Sigma fun _ : K => V) ∈ (filterVals keep table).entries :=
    AList.mem_lookup_iff.mp found
  exact List.of_mem_filter (p := fun entry : Sigma fun _ : K => V => keep entry.1 entry.2) member

/-! ## Indexes -/

section Indexes
variable {R : Type} [DecidableEq V] {index : Table K V} {rows : Table V R} {key : R → K}

/-- The index has every row under its key, and nothing else. -/
def Indexes (index : Table K V) (rows : Table V R) (key : R → K) : Prop :=
  ∀ k v, index.lookup k = some v ↔ ∃ row, rows.lookup v = some row ∧ key row = k

theorem indexes_empty : Indexes (∅ : Table K V) ∅ key := by
  intro k v
  constructor
  · nofun
  · rintro ⟨row, ⟨⟩, -⟩

/-- A key stands for at most one row. -/
theorem Indexes.unique (sound : Indexes index rows key) {v w : V} {row other : R}
    (held : rows.lookup v = some row) (held' : rows.lookup w = some other) (same : key row = key other) :
    v = w := by
  have found := (sound (key row) v).mpr ⟨row, held, rfl⟩
  rw [same, (sound (key other) w).mpr ⟨other, held', rfl⟩] at found
  exact (Option.some.inj found).symm

theorem Indexes.insert (sound : Indexes index rows key) {v : V} (row : R)
    (new : index.lookup (key row) = none) (free : rows.lookup v = none) :
    Indexes (AList.insert (key row) v index) (AList.insert v row rows) key := by
  intro k w
  rw [lookup_insert_if, lookup_insert_if]
  by_cases mine : k = key row
  · subst mine
    rw [if_pos rfl]
    constructor
    · rintro ⟨⟩
      exact ⟨row, if_pos rfl, rfl⟩
    · rintro ⟨other, held, same⟩
      split at held
      · rename_i here
        rw [here]
      · have known := (sound _ w).mpr ⟨other, held, same⟩
        rw [new] at known
        cases known
  · rw [if_neg mine, sound]
    constructor
    · rintro ⟨other, held, named⟩
      have apart : w ≠ v := by
        rintro rfl
        rw [free] at held
        cases held
      exact ⟨other, by rw [if_neg apart, held], named⟩
    · rintro ⟨other, held, named⟩
      split at held
      · cases held
        exact absurd named.symm mine
      · exact ⟨other, held, named⟩

theorem Indexes.erase (sound : Indexes index rows key) {v : V} {row : R}
    (held : rows.lookup v = some row) :
    Indexes (AList.erase (key row) index) (AList.erase v rows) key := by
  intro k w
  rw [lookup_erase_if, lookup_erase_if]
  by_cases mine : k = key row
  · subst mine
    rw [if_pos rfl]
    constructor
    · nofun
    · rintro ⟨other, still, same⟩
      split at still
      · cases still
      · rename_i apart
        exact absurd (sound.unique still held same) apart
  · rw [if_neg mine, sound]
    constructor
    · rintro ⟨other, still, named⟩
      have apart : w ≠ v := by
        rintro rfl
        rw [held] at still
        cases still
        exact mine named.symm
      exact ⟨other, by rw [if_neg apart, still], named⟩
    · rintro ⟨other, still, named⟩
      split at still
      · cases still
      · exact ⟨other, still, named⟩

end Indexes

end Table
end Library
