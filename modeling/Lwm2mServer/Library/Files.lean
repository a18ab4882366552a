import Lwm2mServer.Library.Table
import Mathlib.Logic.Function.Basic

/-! A file system as far as writing and renaming go: names point at inodes, and
a file that was opened is written through its inode, whatever its name has
become since. Opening for writing truncates; a write past the end fills the gap
with zeros; renaming moves the name in one step. -/
namespace Library

/-- Names, and the contents of the inodes they point at. -/
structure Files (N : Type) where
  dir : Table N Nat
  inodes : Nat → List UInt8
  next : Nat

namespace Files
variable {N : Type} [DecidableEq N] (fs : Files N)

/-- The content of a file by its name. -/
def read (name : N) : Option (List UInt8) := (fs.dir.lookup name).map fs.inodes

/-- Open for writing: an existing file is truncated, a missing one created. -/
def create (name : N) : Nat × Files N :=
  match fs.dir.lookup name with
  | some inode => (inode, { fs with inodes := Function.update fs.inodes inode [] })
  | none => (fs.next,
      { dir := fs.dir.insert name fs.next
        inodes := Function.update fs.inodes fs.next []
        next := fs.next + 1 })

/-- Bytes put over others from an offset on. -/
def overwrite (old : List UInt8) (offset : Nat) (chunk : List UInt8) : List UInt8 :=
  old.take offset ++ List.replicate (offset - old.length) 0 ++ chunk ++ old.drop (offset + chunk.length)

/-- One write through an open file. -/
def writeAt (inode offset : Nat) (chunk : List UInt8) : Files N :=
  { fs with inodes := Function.update fs.inodes inode (overwrite (fs.inodes inode) offset chunk) }

/-- `none` when there is no file of the old name. -/
def rename (old new : N) : Option (Files N) :=
  (fs.dir.lookup old).map fun inode => { fs with dir := (fs.dir.erase old).insert new inode }

/-- No inode has two names, and none is used before it is handed out. -/
structure Unshared : Prop where
  names : ∀ a b inode, fs.dir.lookup a = some inode → fs.dir.lookup b = some inode → a = b
  used : ∀ a inode, fs.dir.lookup a = some inode → inode < fs.next

variable {fs} {name other : N} {inode : Nat}

/-- Writing on from where the last write ended. -/
theorem overwrite_take (data : List UInt8) {offset : Nat} (within : offset ≤ data.length) (n : Nat) :
    overwrite (data.take offset) offset ((data.drop offset).take n) = data.take (offset + n) := by
  have full : (data.take offset).length = offset := List.length_take_of_le within
  have done : (data.take offset).drop (offset + ((data.drop offset).take n).length) = [] :=
    List.drop_eq_nil_of_le (by omega)
  rw [overwrite, full, Nat.sub_self, List.replicate_zero, List.append_nil, done, List.append_nil,
    List.take_of_length_le (Nat.le_of_eq full), List.take_add]

/-- An opened file is empty. -/
theorem create_opened : (fs.create name).2.dir.lookup name = some (fs.create name).1 ∧
    (fs.create name).2.inodes (fs.create name).1 = [] := by
  unfold create
  split <;> simp [*]

/-- Opening a file leaves the others alone. -/
theorem create_other (unshared : fs.Unshared) (apart : other ≠ name) :
    (fs.create name).2.dir.lookup other = fs.dir.lookup other ∧
      ∀ inode, fs.dir.lookup other = some inode →
        (fs.create name).2.inodes inode = fs.inodes inode := by
  unfold create
  split
  · rename_i opened held
    refine ⟨rfl, fun inode found => Function.update_of_ne (fun same => apart ?_) _ _⟩
    exact unshared.names _ _ _ found (same ▸ held)
  · refine ⟨AList.lookup_insert_ne apart, fun inode found => Function.update_of_ne ?_ _ _⟩
    exact Nat.ne_of_lt (unshared.used _ _ found)

theorem create_unshared (unshared : fs.Unshared) (name : N) : (fs.create name).2.Unshared := by
  unfold create
  split
  · exact ⟨unshared.names, unshared.used⟩
  · constructor
    · intro a b inode first second
      simp only [Table.lookup_insert_if] at first second
      split at first <;> split at second
      · simp [*]
      · cases first
        exact absurd (unshared.used _ _ second) (Nat.lt_irrefl _)
      · cases second
        exact absurd (unshared.used _ _ first) (Nat.lt_irrefl _)
      · exact unshared.names _ _ _ first second
    · intro a inode found
      simp only [Table.lookup_insert_if] at found
      split at found
      · cases found
        exact Nat.lt_succ_self _
      · exact Nat.lt_succ_of_lt (unshared.used _ _ found)

omit [DecidableEq N] in
theorem writeAt_inode (offset : Nat) (chunk : List UInt8) :
    (fs.writeAt inode offset chunk).inodes inode = overwrite (fs.inodes inode) offset chunk :=
  Function.update_self ..

/-- A write is seen under the one name of its inode. -/
theorem writeAt_other (unshared : fs.Unshared) (held : fs.dir.lookup name = some inode)
    (apart : other ≠ name) (offset : Nat) (chunk : List UInt8) {there : Nat}
    (found : fs.dir.lookup other = some there) :
    (fs.writeAt inode offset chunk).inodes there = fs.inodes there := by
  refine Function.update_of_ne (fun same => ?_) _ _
  subst same
  exact apart (unshared.names _ _ _ found held)

theorem rename_dir {renamed : Files N} {old new : N} (ran : fs.rename old new = some renamed) :
    ∃ inode, fs.dir.lookup old = some inode ∧ renamed.inodes = fs.inodes ∧ renamed.next = fs.next ∧
      ∀ probe, renamed.dir.lookup probe =
        if probe = new then some inode else if probe = old then none else fs.dir.lookup probe := by
  obtain ⟨inode, held, rfl⟩ := Option.map_eq_some_iff.mp ran
  refine ⟨inode, held, rfl, rfl, fun probe => ?_⟩
  rw [Table.lookup_insert_if, Table.lookup_erase_if]

theorem rename_unshared {renamed : Files N} {old new : N} (unshared : fs.Unshared)
    (ran : fs.rename old new = some renamed) : renamed.Unshared := by
  obtain ⟨inode, held, _, next, dir⟩ := rename_dir ran
  -- every name after the renaming had its inode before, the new name under the old one
  have before {a : N} {i : Nat} (found : renamed.dir.lookup a = some i) :
      (a = new ∧ i = inode) ∨ (a ≠ new ∧ a ≠ old ∧ fs.dir.lookup a = some i) := by
    rw [dir] at found
    split at found
    · exact Or.inl ⟨‹_›, (Option.some.inj found).symm⟩
    · split at found
      · cases found
      · exact Or.inr ⟨‹_›, ‹_›, found⟩
  constructor
  · intro a b i first second
    rcases before first with ⟨rfl, rfl⟩ | ⟨_, other, was⟩ <;>
      rcases before second with ⟨rfl, same⟩ | ⟨_, other', was'⟩
    · rfl
    · exact absurd (unshared.names _ _ _ was' held) other'
    · exact absurd (unshared.names _ _ _ was (same ▸ held)) other
    · exact unshared.names _ _ _ was was'
  · intro a i found
    rw [next]
    rcases before found with ⟨_, rfl⟩ | ⟨_, _, was⟩
    · exact unshared.used _ _ held
    · exact unshared.used _ _ was

end Files
end Library
