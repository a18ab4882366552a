import Lwm2mServer.Library.Slices
import Lwm2mServer.Library.Table

/-! Paths into a tree of directories and files, as a Unix file system without
links resolves them: a name is looked up in the directory before it, `..` leads
to the parent, and an empty component or `.` stays where it is. The place of an
entry is its path, innermost name first. What a file holds is left open. With
them the parts of file names as `std::path` takes them apart. -/
namespace Library

/-- A name that an entry of a directory can have. -/
def validName (name : String) : Bool :=
  decide (name ≠ "") && decide (name ≠ ".") && decide (name ≠ "..") && decide ('/' ∉ name.toList) &&
    decide ('\x00' ∉ name.toList) && decide (byteLen name.toList ≤ 255)

inductive Entry (α : Type) where
  | dir
  | file (content : α)
  deriving DecidableEq

def Entry.isDir {α : Type} : Entry α → Bool
  | .dir => true
  | .file _ => false

def Entry.content {α : Type} : Entry α → Option α
  | .dir => none
  | .file content => some content

/-- The entries by their places. What holds one is a directory. -/
structure FileSystem (α : Type) where
  entries : Table (List String) (Entry α)
  named : ∀ name dir, (entries.lookup (name :: dir)).isSome → validName name = true
  rooted : ∀ name dir, (entries.lookup (name :: dir)).isSome →
    dir = [] ∨ entries.lookup dir = some .dir

/-- A path as it is passed on: an existing directory and the components to
follow from there. -/
structure Location where
  base : List String
  components : List String
  deriving DecidableEq

namespace FileSystem

variable {α : Type}

def lookup (fs : FileSystem α) (place : List String) : Option (Entry α) := fs.entries.lookup place

def empty : FileSystem α where
  entries := ∅
  named := by
    intro name dir stored
    cases stored
  rooted := by
    intro name dir stored
    cases stored

def isDir (fs : FileSystem α) (place : List String) : Bool :=
  decide (place = []) || (fs.lookup place).any Entry.isDir

theorem isDir_iff {fs : FileSystem α} {place : List String} :
    fs.isDir place = true ↔ place = [] ∨ fs.lookup place = some .dir := by
  rw [isDir, Bool.or_eq_true, decide_eq_true_eq]
  refine or_congr_right ?_
  cases held : fs.lookup place with
  | none => simp
  | some entry => cases entry <;> simp [Entry.isDir]

/-- There can be an entry other than a directory. -/
def free (fs : FileSystem α) : List String → Bool
  | [] => false
  | name :: dir => validName name && fs.isDir dir && !fs.isDir (name :: dir)

/-- The entry at a place is made, or replaced unless it is a directory. -/
def put (fs : FileSystem α) (place : List String) (entry : Entry α) : Option (FileSystem α) :=
  if free : fs.free place = true then
    some {
      entries := fs.entries.insert place entry
      named := by
        intro name dir stored
        rw [Table.lookup_insert_if] at stored
        split at stored
        · rename_i same
          subst same
          simp only [FileSystem.free, Bool.and_eq_true] at free
          exact free.1.1
        · exact fs.named name dir stored
      rooted := by
        intro name dir stored
        have apart (kept : dir = [] ∨ fs.entries.lookup dir = some .dir) :
            dir = [] ∨ (fs.entries.insert place entry).lookup dir = some .dir := by
          refine kept.imp_right fun held => ?_
          rw [Table.lookup_insert_if, if_neg ?_]
          · exact held
          · rintro rfl
            have dirs : fs.isDir dir = true := isDir_iff.mpr (Or.inr held)
            cases dir with
            | nil => cases free
            | cons last rest => simp [FileSystem.free, dirs] at free
        rw [Table.lookup_insert_if] at stored
        split at stored
        · rename_i same
          subst same
          simp only [FileSystem.free, Bool.and_eq_true] at free
          exact apart (isDir_iff.mp free.1.2)
        · exact apart (fs.rooted name dir stored) }
  else none

/-- The entry at a place is taken out, unless it is a directory. -/
def erase (fs : FileSystem α) (place : List String) : Option (FileSystem α) :=
  if plain : fs.isDir place = false then
    some {
      entries := fs.entries.erase place
      named := by
        intro name dir stored
        rw [Table.lookup_erase_if] at stored
        split at stored
        · cases stored
        · exact fs.named name dir stored
      rooted := by
        intro name dir stored
        rw [Table.lookup_erase_if] at stored
        split at stored
        · cases stored
        · refine (fs.rooted name dir stored).imp_right fun held => ?_
          rw [Table.lookup_erase_if, if_neg ?_]
          · exact held
          · rintro rfl
            rw [isDir_iff.mpr (Or.inr held)] at plain
            cases plain }
  else none

/-- Entries made one after the other, as far as they can be. -/
def ofList (entries : List (List String × Entry α)) : FileSystem α :=
  entries.foldl (fun fs entry => (fs.put entry.1 entry.2).getD fs) empty

/-- The directory that components lead to. -/
def walk (isDir : List String → Bool) : List String → List String → Option (List String)
  | here, [] => some here
  | here, name :: rest =>
    if name = "" ∨ name = "." then walk isDir here rest
    else if name = ".." then walk isDir here.tail rest
    else if isDir (name :: here) then walk isDir (name :: here) rest
    else none

/-- The place a path leads to, whether there is an entry or not. -/
def leads (isDir : List String → Bool) (path : Location) : Option (List String) := do
  let name ← path.components.getLast?
  let dir ← walk isDir path.base path.components.dropLast
  return name :: dir

def resolve (fs : FileSystem α) (path : Location) : Option (List String) := leads fs.isDir path

/-- `fs::write`. -/
def write (fs : FileSystem α) (path : Location) (content : α) : Option (FileSystem α) := do
  fs.put (← fs.resolve path) (.file content)

/-- `fs::rename` of a file. -/
def rename (fs : FileSystem α) (old new : Location) : Option (FileSystem α) := do
  let source ← fs.resolve old
  let target ← fs.resolve new
  match fs.lookup source with
  | some (.file content) => (← fs.erase source).put target (.file content)
  | _ => none

/-- `fs::remove_file`. -/
def removeFile (fs : FileSystem α) (path : Location) : Option (FileSystem α) := do
  let place ← fs.resolve path
  match fs.lookup place with
  | some (.file _) => fs.erase place
  | _ => none

/-- `fs::create_dir_all` where the parent is there. -/
def createDir (fs : FileSystem α) (place : List String) : Option (FileSystem α) :=
  match fs.lookup place with
  | some .dir => some fs
  | some (.file _) => none
  | none => fs.put place .dir

/-- `fs::read_dir`: the names in a directory with what they stand for. -/
def readDir (fs : FileSystem α) (dir : List String) : List (String × Entry α) :=
  fs.entries.entries.filterMap fun entry =>
    match entry.1 with
    | name :: place => if place = dir then some (name, entry.2) else none
    | [] => none

variable {fs after : FileSystem α} {name : String} {dir place other : List String} {entry : Entry α}
  {content : α} {path : Location}

/-! ### Changes -/

theorem put_isSome (entry : Entry α) : (fs.put place entry).isSome = fs.free place := by
  unfold put
  split
  · rename_i free
    exact free.symm
  · rename_i blocked
    exact (Bool.not_eq_true _ ▸ blocked).symm

theorem lookup_put (made : fs.put place entry = some after) :
    after.lookup other = if other = place then some entry else fs.lookup other := by
  unfold put at made
  split at made
  · cases made
    exact Table.lookup_insert_if ..
  · cases made

theorem free_of_put (made : fs.put place entry = some after) : fs.free place = true := by
  rw [← put_isSome entry, made]
  rfl

theorem lookup_erase (made : fs.erase place = some after) :
    after.lookup other = if other = place then none else fs.lookup other := by
  unfold erase at made
  split at made
  · cases made
    exact Table.lookup_erase_if ..
  · cases made

theorem erase_eq_some (plain : fs.isDir place = false) : ∃ after, fs.erase place = some after := by
  rw [erase, dif_pos plain]
  exact ⟨_, rfl⟩

theorem lookup_of_free (free : fs.free place = true) : fs.lookup place ≠ some .dir := by
  cases place with
  | nil => cases free
  | cons name dir =>
    intro held
    simp [FileSystem.free, isDir_iff.mpr (Or.inr held)] at free

theorem isDir_of_free (free : fs.free place = true) : fs.isDir place = false := by
  cases place with
  | nil => cases free
  | cons name dir => simpa [FileSystem.free] using (Bool.and_eq_true_iff.mp free).2

theorem free_congr (same : after.isDir = fs.isDir) : after.free = fs.free := by
  funext place
  cases place with
  | nil => rfl
  | cons name dir => simp only [FileSystem.free, same]

/-- Nothing is in what is no directory. -/
theorem lookup_outside (none_ : fs.isDir dir = false) : fs.lookup (name :: dir) = none := by
  by_contra held
  have rooted := fs.rooted name dir (Option.isSome_iff_ne_none.mpr held)
  rw [isDir_iff.mpr rooted] at none_
  cases none_

theorem mem_readDir : (name, entry) ∈ fs.readDir dir ↔ fs.lookup (name :: dir) = some entry := by
  rw [readDir, List.mem_filterMap, lookup]
  constructor
  · rintro ⟨⟨path, found⟩, member, made⟩
    cases path with
    | nil => cases made
    | cons other place =>
      dsimp only at made
      split at made
      · rename_i same
        cases made
        subst same
        exact AList.mem_lookup_iff.mpr member
      · cases made
  · intro stored
    refine ⟨⟨name :: dir, entry⟩, AList.mem_lookup_iff.mp stored, ?_⟩
    simp

/-! ### Directories stay -/

/-- A file that is put, replaced or taken out leaves all directories. -/
theorem isDir_congr (same : ∀ place, after.lookup place = some .dir ↔ fs.lookup place = some .dir) :
    after.isDir = fs.isDir := by
  funext place
  rw [Bool.eq_iff_iff, isDir_iff, isDir_iff, same]

theorem isDir_put_file (made : fs.put place (.file content) = some after) : after.isDir = fs.isDir := by
  refine isDir_congr fun other => ?_
  rw [lookup_put made]
  split
  · rename_i same
    subst same
    exact iff_of_false nofun (lookup_of_free (free_of_put made))
  · exact Iff.rfl

theorem isDir_erase (made : fs.erase place = some after) : after.isDir = fs.isDir := by
  refine isDir_congr fun other => ?_
  rw [lookup_erase made]
  split
  · rename_i same
    subst same
    refine iff_of_false nofun fun held => ?_
    have dirs : fs.isDir other = true := isDir_iff.mpr (Or.inr held)
    simp [erase, dirs] at made
  · exact Iff.rfl

theorem isDir_write (made : fs.write path content = some after) : after.isDir = fs.isDir := by
  obtain ⟨place, -, made⟩ := Option.bind_eq_some_iff.mp made
  exact isDir_put_file made

theorem isDir_rename {old new : Location} (made : fs.rename old new = some after) :
    after.isDir = fs.isDir := by
  obtain ⟨source, -, made⟩ := Option.bind_eq_some_iff.mp made
  obtain ⟨target, -, made⟩ := Option.bind_eq_some_iff.mp made
  split at made
  · obtain ⟨between, erased, made⟩ := Option.bind_eq_some_iff.mp made
    exact (isDir_put_file made).trans (isDir_erase erased)
  · cases made

theorem isDir_removeFile (made : fs.removeFile path = some after) : after.isDir = fs.isDir := by
  obtain ⟨place, -, made⟩ := Option.bind_eq_some_iff.mp made
  split at made
  · exact isDir_erase made
  · cases made

/-- Where a path leads depends on the directories only. -/
theorem resolve_congr (same : after.isDir = fs.isDir) : after.resolve = fs.resolve := by
  funext path
  rw [resolve, resolve, same]

/-! ### Effects -/

theorem lookup_write (made : fs.write path content = some after) (other : List String) :
    ∃ place, fs.resolve path = some place ∧
      after.lookup other = if other = place then some (.file content) else fs.lookup other := by
  obtain ⟨place, leads, made⟩ := Option.bind_eq_some_iff.mp made
  exact ⟨place, leads, lookup_put made⟩

theorem lookup_rename {old new : Location} (made : fs.rename old new = some after)
    (other : List String) :
    ∃ source target content, fs.resolve old = some source ∧ fs.resolve new = some target ∧
      fs.lookup source = some (.file content) ∧
      after.lookup other = if other = target then some (.file content)
        else if other = source then none else fs.lookup other := by
  obtain ⟨source, from_, made⟩ := Option.bind_eq_some_iff.mp made
  obtain ⟨target, to_, made⟩ := Option.bind_eq_some_iff.mp made
  split at made
  · rename_i content held
    obtain ⟨between, erased, made⟩ := Option.bind_eq_some_iff.mp made
    refine ⟨source, target, content, from_, to_, held, ?_⟩
    rw [lookup_put made, lookup_erase erased]
  · cases made

theorem isDir_of_file (held : fs.lookup (name :: dir) = some (.file content)) :
    fs.isDir (name :: dir) = false := by
  rw [isDir, held]
  rfl

/-- A path leads to a name in a directory. -/
theorem resolve_cons (leads : fs.resolve path = some place) : ∃ name dir, place = name :: dir ∧
    path.components.getLast? = some name := by
  obtain ⟨name, last, rest⟩ := Option.bind_eq_some_iff.mp leads
  obtain ⟨dir, -, made⟩ := Option.bind_eq_some_iff.mp rest
  cases made
  exact ⟨name, dir, rfl, last⟩

/-- What is left when a file is to be removed. -/
theorem lookup_removeFile : ((fs.removeFile path).getD fs).lookup other =
    if fs.resolve path = some other ∧ fs.isDir other = false then none else fs.lookup other := by
  unfold removeFile
  cases leads : fs.resolve path with
  | none => simp
  | some place =>
    obtain ⟨name, dir, rfl, -⟩ := resolve_cons leads
    simp only [Option.bind_eq_bind, Option.bind_some, Option.some.injEq]
    cases held : fs.lookup (name :: dir) with
    | none =>
      dsimp only [Option.getD_none]
      split
      · rename_i here
        rw [← here.1, held]
      · rfl
    | some entry =>
      cases entry with
      | dir =>
        dsimp only [Option.getD_none]
        rw [if_neg ?_]
        rintro ⟨rfl, plain⟩
        rw [isDir_iff.mpr (Or.inr held)] at plain
        cases plain
      | file content =>
        have plain := isDir_of_file held
        obtain ⟨after, erased⟩ := erase_eq_some plain
        dsimp only
        rw [erased, Option.getD_some, lookup_erase erased]
        by_cases here : other = name :: dir
        · subst here
          rw [if_pos rfl, if_pos ⟨rfl, plain⟩]
        · rw [if_neg here, if_neg fun both => here both.1.symm]

end FileSystem

/-! ## File names -/

/-- What stands before and after the last dot. -/
def splitLastDot (chars : List Char) : Option (List Char × List Char) :=
  match chars.reverse.dropWhile (· ≠ '.') with
  | [] => none
  | _ :: before => some (before.reverse, (chars.reverse.takeWhile (· ≠ '.')).reverse)

/-- `Path::file_stem` and `Path::extension` of a file name. A name that begins
with its only dot has no extension. -/
def fileParts (name : String) : String × Option String :=
  if name = ".." then (name, none)
  else match splitLastDot name.toList with
    | none | some ([], _) => (name, none)
    | some (before, after) => (String.ofList before, some (String.ofList after))

/-- `Path::with_extension` of a file name. -/
def withExtension (name ext : String) : String := (fileParts name).1 ++ "." ++ ext

/-- `Path::join`. -/
def Location.join (path : Location) (text : String) : Location :=
  let components := (text.toList.splitOn '/').map String.ofList
  if text.toList.head? = some '/' then ⟨[], components⟩
  else { path with components := path.components ++ components }

theorem splitLastDot_append (before : List Char) {after : List Char} (plain : '.' ∉ after) :
    splitLastDot (before ++ '.' :: after) = some (before, after) := by
  have reversed : (before ++ '.' :: after).reverse = after.reverse ++ '.' :: before.reverse := by simp
  have letters : ∀ c ∈ after.reverse, decide (c ≠ '.') = true := by
    intro c member
    refine decide_eq_true fun same => plain ?_
    rw [← same]
    exact List.mem_reverse.mp member
  simp only [splitLastDot, reversed]
  rw [List.dropWhile_append_of_pos letters, List.takeWhile_append_of_pos letters,
    List.dropWhile_cons_of_neg (by simp), List.takeWhile_cons_of_neg (by simp)]
  simp

theorem append_of_splitLastDot {chars before after : List Char}
    (split_ : splitLastDot chars = some (before, after)) : chars = before ++ '.' :: after := by
  unfold splitLastDot at split_
  split at split_
  · cases split_
  · rename_i dot rest dropped
    cases split_
    have parts := List.takeWhile_append_dropWhile (p := fun c => decide (c ≠ '.')) (l := chars.reverse)
    have first : dot = '.' := by
      have fails := List.head?_dropWhile_not (fun c => decide (c ≠ '.')) chars.reverse
      rw [dropped] at fails
      simpa using fails
    rw [dropped, first] at parts
    have whole := congrArg List.reverse parts
    simpa using whole.symm

/-- A name with an extension is put together from its parts. -/
theorem name_of_fileParts {name stem ext : String} (parts : fileParts name = (stem, some ext)) :
    name = stem ++ "." ++ ext := by
  unfold fileParts at parts
  split at parts
  · cases parts
  · split at parts
    · cases parts
    · cases parts
    · rename_i before after _ cut
      cases parts
      have whole := append_of_splitLastDot cut
      apply String.toList_injective
      rw [whole]
      simp

theorem fileParts_append {stem ext : String} (named : stem ≠ "") (plain : '.' ∉ ext.toList)
    (longer : ext ≠ "") : fileParts (stem ++ "." ++ ext) = (stem, some ext) := by
  have chars : (stem ++ "." ++ ext).toList = stem.toList ++ '.' :: ext.toList := by simp
  have stemChars : stem.toList ≠ [] := fun empty => named (String.toList_eq_nil_iff.mp empty)
  have extChars : ext.toList ≠ [] := fun empty => longer (String.toList_eq_nil_iff.mp empty)
  have other : stem ++ "." ++ ext ≠ ".." := by
    intro same
    have lengths := congrArg (fun text => text.toList.length) same
    simp only [chars, List.length_append, List.length_cons] at lengths
    have first := List.length_pos_of_ne_nil stemChars
    have last := List.length_pos_of_ne_nil extChars
    have two : "..".toList.length = 2 := rfl
    omega
  rw [fileParts, if_neg other, chars, splitLastDot_append _ plain]
  cases letters : stem.toList with
  | nil => exact absurd letters stemChars
  | cons c rest =>
    rw [← letters]
    simp

/-- A text without a slash is one component. -/
theorem join_plain {path : Location} {text : String} (plain : '/' ∉ text.toList) :
    path.join text = { path with components := path.components ++ [text] } := by
  have whole : text.toList.splitOn '/' = [text.toList] := by
    refine List.splitOnP_eq_singleton fun c member => ?_
    rw [beq_eq_false_iff_ne]
    rintro rfl
    exact plain member
  have relative : text.toList.head? ≠ some '/' := fun first => plain (List.mem_of_mem_head? first)
  simp only [Location.join, whole, if_neg relative]
  simp

/-- What stands behind the last slash is the end of the last component. -/
theorem getLast_join (path : Location) (front : String) {back : String} (plain : '/' ∉ back.toList) :
    ∃ name, (path.join (front ++ back)).components.getLast? = some (name ++ back) := by
  have pieces (chars : List Char) : ∃ piece,
      ((chars ++ back.toList).splitOn '/').getLast? = some (piece ++ back.toList) := by
    induction chars with
    | nil =>
      have whole : back.toList.splitOn '/' = [back.toList] := by
        refine List.splitOnP_eq_singleton fun c member => ?_
        rw [beq_eq_false_iff_ne]
        rintro rfl
        exact plain member
      rw [List.nil_append, whole]
      exact ⟨[], rfl⟩
    | cons c chars ih =>
      obtain ⟨piece, last⟩ := ih
      rw [List.splitOn] at last ⊢
      rw [List.cons_append, List.splitOnP_cons_eq_if_modifyHead]
      generalize parts : List.splitOnP (· == '/') (chars ++ back.toList) = rest at last
      cases rest with
      | nil => cases last
      | cons first rest =>
        split
        · exact ⟨piece, last⟩
        · cases rest with
          | nil =>
            cases last
            exact ⟨c :: piece, rfl⟩
          | cons second rest => exact ⟨piece, last⟩
  obtain ⟨piece, last⟩ := pieces front.toList
  have named : (((front ++ back).toList.splitOn '/').map String.ofList).getLast? =
      some (String.ofList piece ++ back) := by
    rw [List.getLast?_map, String.toList_append, last]
    simp
  refine ⟨String.ofList piece, ?_⟩
  unfold Location.join
  dsimp only
  split
  · exact named
  · rw [List.getLast?_append, named]
    rfl

namespace FileSystem

variable {α : Type} {fs : FileSystem α} {base place : List String} {name dir : String}

/-- A name in a directory below another. -/
theorem resolve_below (valid : validName dir = true) : fs.resolve ⟨base, [dir, name]⟩ =
    if fs.isDir (dir :: base) then some (name :: dir :: base) else none := by
  simp only [validName, Bool.and_eq_true, decide_eq_true_eq] at valid
  obtain ⟨⟨⟨⟨⟨empty, here⟩, parent⟩, -⟩, -⟩, -⟩ := valid
  simp only [resolve, leads, List.getLast?_cons_cons, List.getLast?_singleton, List.dropLast_cons_cons,
    List.dropLast_singleton, walk, empty, here, parent, or_self, if_false, Option.bind_eq_bind,
    Option.bind_some]
  split <;> rfl

theorem resolve_single : fs.resolve ⟨base, [name]⟩ = some (name :: base) := rfl

end FileSystem

end Library
