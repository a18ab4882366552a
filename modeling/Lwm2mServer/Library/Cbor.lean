import Mathlib.Algebra.GroupWithZero.Nat

/-! A decoder for the data items of RFC 8949, definite and indefinite lengths,
and how what it reads from a piece of input is put together from what it reads
from the pieces of that. -/
namespace Library.Cbor

/-- A data item. Integers carry their argument: `negative n` is `-1 - n`.
False, true and null are the simple values 20, 21 and 22. -/
inductive Item where
  | unsigned (value : Nat)
  | negative (value : Nat)
  | bytes (content : List UInt8)
  | text (content : String)
  | array (items : List Item)
  | map (fields : List (Item × Item))
  | tag (number : Nat) (content : Item)
  | simple (value : Nat)
  | float (width bits : Nat)

/-- Reads from the front of the input and leaves the rest. -/
abbrev Reader (α : Type) := List UInt8 → Option (α × List UInt8)

/-- The argument of an item: its major type, the additional information in the
initial byte, and the number given there or behind it, none for an indefinite
length. -/
structure Head where
  major : Nat
  info : Nat
  argument : Option Nat
  deriving DecidableEq

variable {α β : Type}

def takeBytes (n : Nat) : Reader (List UInt8) := fun input =>
  if n ≤ input.length then some (input.take n, input.drop n) else none

def bigEndian (bytes : List UInt8) : Nat := bytes.foldl (fun acc byte => acc * 256 + byte.toNat) 0

def head : Reader Head
  | [] => none
  | byte :: input =>
    let major := byte.toNat / 32
    let info := byte.toNat % 32
    if info < 24 then some (⟨major, info, some info⟩, input)
    else if info < 28 then
      (takeBytes (2 ^ (info - 24)) input).map fun taken =>
        (⟨major, info, some (bigEndian taken.1)⟩, taken.2)
    else if info = 31 then some (⟨major, info, none⟩, input)
    else none

def times (read : Reader α) : Nat → Reader (List α)
  | 0, input => some ([], input)
  | n + 1, input => do
    let (a, input) ← read input
    let (as, input) ← times read n input
    return (a :: as, input)

/-- Up to the break byte. -/
def untilBreak (read : Reader α) : Nat → Reader (List α)
  | 0, _ => none
  | n + 1, input =>
    if input.head? = some 0xFF then some ([], input.tail)
    else do
      let (a, input) ← read input
      let (as, input) ← untilBreak read n input
      return (a :: as, input)

def pair (first : Reader α) (second : Reader β) : Reader (α × β) := fun input => do
  let (a, input) ← first input
  let (b, input) ← second input
  return ((a, b), input)

def utf8 (bytes : List UInt8) : Option String := String.fromUTF8? ⟨bytes.toArray⟩

/-- A string of definite length, whose bytes have to have a meaning. -/
def definite (convert : List UInt8 → Option α) (n : Nat) : Reader α := fun input => do
  let (bytes, input) ← takeBytes n input
  let a ← convert bytes
  return (a, input)

/-- One chunk of a string of indefinite length. -/
def chunk (major : Nat) (convert : List UInt8 → Option α) : Reader α := fun input => do
  let (h, input) ← head input
  match h.argument with
  | some n => if h.major = major then definite convert n input else none
  | none => none

/-- Data items nested up to a depth. -/
def item : Nat → Reader Item
  | 0, _ => none
  | depth + 1, input => do
    let (h, input) ← head input
    match h.major, h.argument with
    | 0, some n => return (.unsigned n, input)
    | 1, some n => return (.negative n, input)
    | 2, some n =>
      let (content, input) ← definite some n input
      return (.bytes content, input)
    | 2, none =>
      let (chunks, input) ← untilBreak (chunk 2 some) input.length input
      return (.bytes chunks.flatten, input)
    | 3, some n =>
      let (content, input) ← definite utf8 n input
      return (.text content, input)
    | 3, none =>
      let (chunks, input) ← untilBreak (chunk 3 utf8) input.length input
      return (.text (String.join chunks), input)
    | 4, some n =>
      let (items, input) ← times (item depth) n input
      return (.array items, input)
    | 4, none =>
      let (items, input) ← untilBreak (item depth) input.length input
      return (.array items, input)
    | 5, some n =>
      let (fields, input) ← times (pair (item depth) (item depth)) n input
      return (.map fields, input)
    | 5, none =>
      let (fields, input) ← untilBreak (pair (item depth) (item depth)) input.length input
      return (.map fields, input)
    | 6, some n =>
      let (content, input) ← item depth input
      return (.tag n content, input)
    | 7, some n =>
      -- a simple value below 32 has no second byte
      if h.info < 24 then return (.simple n, input)
      else if h.info = 24 then if 32 ≤ n then return (.simple n, input) else none
      else return (.float (8 * 2 ^ (h.info - 24)) n, input)
    | _, _ => none

/-- A single item that is the whole input. -/
def decode (input : List UInt8) : Option Item :=
  match item (input.length + 1) input with
  | some (value, []) => some value
  | _ => none

/-- From these bytes, whatever follows them, the reader reads this. -/
def Reads (read : Reader α) (bytes : List UInt8) (a : α) : Prop :=
  ∀ rest, read (bytes ++ rest) = some (a, rest)

variable {read : Reader α} {read' : Reader β} {bytes bytes' : List UInt8} {a : α} {b : β}
  {n depth info : Nat}

/-! ## Pieces -/

theorem reads_takeBytes (bytes : List UInt8) : Reads (takeBytes bytes.length) bytes bytes := by
  intro rest
  rw [takeBytes, if_pos (by simp), List.take_left, List.drop_left]

theorem reads_definite {convert : List UInt8 → Option α} (meant : convert bytes = some a) :
    Reads (definite convert bytes.length) bytes a := by
  intro rest
  simp [definite, reads_takeBytes bytes rest, meant]

/-- The argument is in the initial byte. -/
theorem reads_head_short (byte : UInt8) (small : byte.toNat % 32 < 24) :
    Reads head [byte] ⟨byte.toNat / 32, byte.toNat % 32, some (byte.toNat % 32)⟩ := by
  intro rest
  rw [List.singleton_append, head, if_pos small]

/-- The argument is in the 1, 2, 4 or 8 bytes behind the initial one. -/
theorem reads_head_long (byte : UInt8) (large : ¬ byte.toNat % 32 < 24) (known : byte.toNat % 32 < 28)
    (length : bytes.length = 2 ^ (byte.toNat % 32 - 24)) :
    Reads head (byte :: bytes) ⟨byte.toNat / 32, byte.toNat % 32, some (bigEndian bytes)⟩ := by
  intro rest
  rw [List.cons_append, head, if_neg large, if_pos known, ← length, reads_takeBytes bytes rest]
  rfl

theorem reads_nil : Reads (times read 0) [] [] := fun _ => rfl

theorem reads_cons {as : List α} (first : Reads read bytes a) (others : Reads (times read n) bytes' as) :
    Reads (times read (n + 1)) (bytes ++ bytes') (a :: as) := by
  intro rest
  simp [times, List.append_assoc, first (bytes' ++ rest), others rest]

/-- One behind the other, each of the parts is read. -/
theorem reads_all {parts : List (List UInt8 × α)} (each : ∀ part ∈ parts, Reads read part.1 part.2) :
    Reads (times read parts.length) (parts.flatMap Prod.fst) (parts.map Prod.snd) := by
  induction parts with
  | nil => exact reads_nil
  | cons part rest ih =>
    rw [List.flatMap_cons, List.map_cons, List.length_cons]
    exact reads_cons (each part List.mem_cons_self)
      (ih fun other member => each other (List.mem_cons_of_mem _ member))

theorem reads_pair (first : Reads read bytes a) (second : Reads read' bytes' b) :
    Reads (pair read read') (bytes ++ bytes') (a, b) := by
  intro rest
  simp [pair, List.append_assoc, first (bytes' ++ rest), second rest]

theorem utf8_toUTF8 (s : String) : utf8 s.toUTF8.data.toList = some s := by
  have same : (⟨s.toUTF8.data.toList.toArray⟩ : ByteArray) = s.toUTF8 := rfl
  rw [utf8, same, String.fromUTF8?]
  exact dif_pos s.isValidUTF8

/-! ## Items -/

theorem reads_unsigned (h : Reads head bytes ⟨0, info, some n⟩) :
    Reads (item (depth + 1)) bytes (.unsigned n) := by
  intro rest
  show Option.bind (head _) _ = _
  rw [h rest]
  rfl

theorem reads_negative (h : Reads head bytes ⟨1, info, some n⟩) :
    Reads (item (depth + 1)) bytes (.negative n) := by
  intro rest
  show Option.bind (head _) _ = _
  rw [h rest]
  rfl

theorem reads_bytes (h : Reads head bytes ⟨2, info, some bytes'.length⟩) :
    Reads (item (depth + 1)) (bytes ++ bytes') (.bytes bytes') := by
  intro rest
  have content : definite some bytes'.length (bytes' ++ rest) = some (bytes', rest) :=
    reads_definite rfl rest
  rw [List.append_assoc]
  show Option.bind (head _) _ = _
  rw [h (bytes' ++ rest)]
  show Option.bind (definite some _ _) _ = _
  rw [content]
  rfl

theorem reads_text {content : String} (meant : utf8 bytes' = some content)
    (h : Reads head bytes ⟨3, info, some bytes'.length⟩) :
    Reads (item (depth + 1)) (bytes ++ bytes') (.text content) := by
  intro rest
  rw [List.append_assoc]
  show Option.bind (head _) _ = _
  rw [h (bytes' ++ rest)]
  show Option.bind (definite utf8 _ _) _ = _
  rw [reads_definite meant rest]
  rfl

theorem reads_array {items : List Item} (h : Reads head bytes ⟨4, info, some n⟩)
    (each : Reads (times (item depth) n) bytes' items) :
    Reads (item (depth + 1)) (bytes ++ bytes') (.array items) := by
  intro rest
  rw [List.append_assoc]
  show Option.bind (head _) _ = _
  rw [h (bytes' ++ rest)]
  show Option.bind (times (item depth) n _) _ = _
  rw [each rest]
  rfl

theorem reads_map {fields : List (Item × Item)} (h : Reads head bytes ⟨5, info, some n⟩)
    (each : Reads (times (pair (item depth) (item depth)) n) bytes' fields) :
    Reads (item (depth + 1)) (bytes ++ bytes') (.map fields) := by
  intro rest
  rw [List.append_assoc]
  show Option.bind (head _) _ = _
  rw [h (bytes' ++ rest)]
  show Option.bind (times (pair (item depth) (item depth)) n _) _ = _
  rw [each rest]
  rfl

theorem reads_simple (h : Reads head bytes ⟨7, info, some n⟩) (small : info < 24) :
    Reads (item (depth + 1)) bytes (.simple n) := by
  intro rest
  show Option.bind (head _) _ = _
  rw [h rest]
  exact if_pos small

/-- What is read at every depth and with anything behind it is what the bytes
decode to. -/
theorem decode_of_reads {value : Item} (reads : Reads (item (bytes.length + 1)) bytes value) :
    decode bytes = some value := by
  have whole := reads []
  rw [List.append_nil] at whole
  rw [decode, whole]

end Library.Cbor
