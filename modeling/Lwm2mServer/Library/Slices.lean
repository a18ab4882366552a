import Mathlib.Algebra.GroupWithZero.Nat
import Mathlib.Data.List.Basic

/-! Slices of UTF-8 text by byte positions. A position inside the encoding of a
character, or beyond the end, is no place to cut; `none` is the panic. -/
namespace Library

/-- The number of bytes of a text. -/
def byteLen (chars : List Char) : Nat := (chars.map Char.utf8Size).sum

/-- The text before and after a byte position. -/
def splitAtByte : Nat → List Char → Option (List Char × List Char)
  | 0, chars => some ([], chars)
  | _ + 1, [] => none
  | n + 1, c :: chars =>
    if c.utf8Size ≤ n + 1 then
      (splitAtByte (n + 1 - c.utf8Size) chars).map fun (front, back) => (c :: front, back)
    else none

/-- `&text[start..stop]`. -/
def sliceBytes (start stop : Nat) (chars : List Char) : Option (List Char) :=
  if start ≤ stop then do
    let (front, _) ← splitAtByte stop chars
    let (_, middle) ← splitAtByte start front
    return middle
  else none

/-- `&text[start..]`. -/
def sliceFrom (start : Nat) (chars : List Char) : Option (List Char) :=
  (splitAtByte start chars).map (·.2)

/-- `str::find`: where a character first stands, in bytes. -/
def findByte (c : Char) (chars : List Char) : Option Nat :=
  if c ∈ chars then some (byteLen (chars.takeWhile (· ≠ c))) else none

variable {c : Char} {front back chars : List Char} {n : Nat}

@[simp] theorem byteLen_nil : byteLen [] = 0 := rfl

@[simp] theorem byteLen_cons (c : Char) (chars : List Char) :
    byteLen (c :: chars) = c.utf8Size + byteLen chars := rfl

theorem splitAtByte_append (front back : List Char) :
    splitAtByte (byteLen front) (front ++ back) = some (front, back) := by
  induction front with
  | nil => simp [splitAtByte]
  | cons c front ih =>
    have positive := c.utf8Size_pos
    obtain ⟨n, size⟩ : ∃ n, c.utf8Size + byteLen front = n + 1 :=
      ⟨c.utf8Size + byteLen front - 1, by omega⟩
    have rest : n + 1 - c.utf8Size = byteLen front := by omega
    rw [byteLen_cons, size, List.cons_append, splitAtByte, if_pos (by omega), rest, ih]
    rfl

/-- A place behind some text is the place as many bytes further on. -/
theorem splitAtByte_add (front back : List Char) (n : Nat) :
    splitAtByte (byteLen front + n) (front ++ back) =
      (splitAtByte n back).map fun parts => (front ++ parts.1, parts.2) := by
  induction front with
  | nil =>
    rw [byteLen_nil, Nat.zero_add, List.nil_append]
    exact Option.map_id'.symm
  | cons c front ih =>
    have positive := c.utf8Size_pos
    obtain ⟨m, size⟩ : ∃ m, c.utf8Size + byteLen front + n = m + 1 :=
      ⟨c.utf8Size + byteLen front + n - 1, by omega⟩
    have rest : m + 1 - c.utf8Size = byteLen front + n := by omega
    rw [byteLen_cons, size, List.cons_append, splitAtByte, if_pos (by omega), rest, ih, Option.map_map]
    rfl

/-- What is cut out behind some text. -/
theorem sliceBytes_append (front back : List Char) (n : Nat) :
    sliceBytes (byteLen front) (byteLen front + n) (front ++ back) = (splitAtByte n back).map (·.1) := by
  rw [sliceBytes, if_pos (Nat.le_add_right _ _), splitAtByte_add]
  cases splitAtByte n back with
  | none => rfl
  | some parts =>
    simp only [Option.map_some, Option.bind_eq_bind, Option.bind_some, splitAtByte_append]
    rfl

theorem byteLen_append (front back : List Char) : byteLen (front ++ back) = byteLen front + byteLen back := by
  simp [byteLen]

/-- The first character ends at a position only if it is that long. -/
theorem splitAtByte_one_isSome : (splitAtByte 1 (c :: chars)).isSome ↔ c.utf8Size = 1 := by
  have positive := c.utf8Size_pos
  rw [splitAtByte]
  constructor
  · intro cut
    by_contra wide
    rw [if_neg (by omega)] at cut
    cases cut
  · intro narrow
    rw [if_pos (by omega), narrow]
    simp [splitAtByte]

theorem findByte_append (absent : c ∉ front) (back : List Char) :
    findByte c (front ++ c :: back) = some (byteLen front) := by
  have before : (front ++ c :: back).takeWhile (· ≠ c) = front := by
    rw [List.takeWhile_append_of_pos fun a member => ?_]
    · simp
    · simpa using ne_of_mem_of_not_mem member absent
  rw [findByte, if_pos (by simp), before]

/-- The text between the first byte and a position can be cut out exactly if
the text before the position begins with a character of one byte. -/
theorem sliceBytes_one_isSome (front back : List Char) :
    (sliceBytes 1 (byteLen front) (front ++ back)).isSome ↔ ∃ c rest, front = c :: rest ∧ c.utf8Size = 1 := by
  unfold sliceBytes
  cases front with
  | nil => simp
  | cons c rest =>
    have positive := c.utf8Size_pos
    rw [if_pos (by rw [byteLen_cons]; omega), splitAtByte_append]
    simp only [Option.bind_eq_bind, Option.bind_some, List.cons.injEq]
    constructor
    · intro cut
      refine ⟨c, rest, ⟨rfl, rfl⟩, ?_⟩
      cases tried : splitAtByte 1 (c :: rest) with
      | none =>
        rw [tried] at cut
        cases cut
      | some _ => exact splitAtByte_one_isSome.mp (Option.isSome_of_eq_some tried)
    · rintro ⟨c', rest', ⟨rfl, rfl⟩, narrow⟩
      obtain ⟨cut, tried⟩ := Option.isSome_iff_exists.mp (splitAtByte_one_isSome.mpr narrow)
      rw [tried]
      rfl

end Library
