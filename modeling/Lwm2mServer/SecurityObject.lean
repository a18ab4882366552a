import Lwm2mServer.Library.Cbor
import Lwm2mServer.Provisioning

/-! What a device reads out of the Security Object it is sent. The encoder
writes heads, labels and lengths by hand; a decoder of its own reads all of it
back, for every length below `2 ^ 32`, as six SenML records. -/
namespace Lwm2mServer.SecurityObject
open Library Cbor

/-! ## What is meant -/

/-- The number of a SenML label. -/
def label : Item → Option Int
  | .unsigned n => some n
  | .negative n => some (-1 - n)
  | _ => none

def fieldAt (number : Int) (fields : List (Item × Item)) : Option Item :=
  (fields.find? fun field => decide (label field.1 = some number)).map (·.2)

/-- The value of a record: a number, a string, a truth value or data, each
under its own label. -/
def recordValue (fields : List (Item × Item)) : Option Item :=
  match fieldAt 2 fields, fieldAt 3 fields, fieldAt 4 fields, fieldAt 8 fields with
  | some (.unsigned n), none, none, none => some (.unsigned n)
  | none, some (.text s), none, none => some (.text s)
  | none, none, some (.simple b), none => if b = 20 ∨ b = 21 then some (.simple b) else none
  | none, none, none, some (.bytes b) => some (.bytes b)
  | _, _, _, _ => none

/-- The resolved records of a SenML pack: a base name holds from its record on,
and names are put behind it. -/
def resolve (base : String) : List Item → Option (List (String × Item))
  | [] => some []
  | .map fields :: rest => do
    let base := match fieldAt (-2) fields with
      | some (.text b) => b
      | _ => base
    let name := match fieldAt 0 fields with
      | some (.text n) => n
      | _ => ""
    let value ← recordValue fields
    let later ← resolve base rest
    return (base ++ name, value) :: later
  | _ => none

/-! ## Heads -/

/-- The initial byte of a head. -/
private theorem initial_byte : ∀ major < 8, ∀ info < 32,
    ((UInt8.ofNat major <<< 5) ||| UInt8.ofNat info).toNat = major * 32 + info := by
  decide +kernel

private theorem head_parts {major info : Nat} (below : major < 8) (small : info < 32) :
    ((UInt8.ofNat major <<< 5) ||| UInt8.ofNat info).toNat / 32 = major ∧
      ((UInt8.ofNat major <<< 5) ||| UInt8.ofNat info).toNat % 32 = info := by
  rw [initial_byte major below info small]
  omega

private theorem reads_behind {major info n : Nat} {bytes : Bytes} (below : major < 8)
    (range : 24 ≤ info ∧ info < 28) (length : bytes.length = 2 ^ (info - 24))
    (number : bigEndian bytes = n) :
    Reads head (((UInt8.ofNat major <<< 5) ||| UInt8.ofNat info) :: bytes) ⟨major, info, some n⟩ := by
  obtain ⟨first, second⟩ := head_parts below (by omega : info < 32)
  have read := reads_head_long ((UInt8.ofNat major <<< 5) ||| UInt8.ofNat info)
    (by omega) (by omega) (length.trans (by rw [second]))
  rwa [first, second, number] at read

/-- Every length is read back from the head it is written in. -/
theorem reads_cborHead {n : Nat} (major : Nat) (below : major < 8) (fits : n < 2 ^ 32) :
    ∃ info, Reads head (cborHead (UInt8.ofNat major) (UInt64.ofNat n)) ⟨major, info, some n⟩ := by
  have number : (UInt64.ofNat n).toNat = n := by
    rw [UInt64.toNat_ofNat', Nat.mod_eq_of_lt (by omega)]
  have small {bound : UInt64} : UInt64.ofNat n ≤ bound ↔ n ≤ bound.toNat := by
    rw [UInt64.le_iff_toNat_le, number]
  have byte (shift : UInt64) (places : shift.toNat < 64) :
      ((UInt64.ofNat n) >>> shift).toUInt8.toNat = n / 2 ^ shift.toNat % 256 := by
    rw [UInt64.toNat_toUInt8, UInt64.toNat_shiftRight, number, Nat.shiftRight_eq_div_pow,
      Nat.mod_eq_of_lt places]
  have low : (UInt64.ofNat n).toUInt8.toNat = n % 256 := by rw [UInt64.toNat_toUInt8, number]
  simp only [cborHead, small]
  split
  · rename_i short
    have short : n ≤ 23 := short
    have same : (UInt64.ofNat n).toUInt8 = UInt8.ofNat n := by
      apply UInt8.toNat_inj.mp
      rw [low, UInt8.toNat_ofNat']
    obtain ⟨first, second⟩ := head_parts below (by omega : n < 32)
    have read := reads_head_short ((UInt8.ofNat major <<< 5) ||| UInt8.ofNat n) (by omega)
    rw [first, second] at read
    exact ⟨n, same ▸ read⟩
  · split
    · rename_i short
      have short : n ≤ 255 := short
      refine ⟨24, reads_behind below (by decide) rfl ?_⟩
      simp only [bigEndian, List.foldl_cons, List.foldl_nil, low]
      omega
    · split
      · rename_i short
        have short : n ≤ 65535 := short
        have high : ((UInt64.ofNat n) >>> 8).toUInt8.toNat = n / 256 % 256 := byte 8 (by decide)
        refine ⟨25, reads_behind below (by decide) rfl ?_⟩
        simp only [bigEndian, List.foldl_cons, List.foldl_nil, low, high]
        omega
      · have b3 : ((UInt64.ofNat n) >>> 24).toUInt8.toNat = n / 16777216 % 256 := byte 24 (by decide)
        have b2 : ((UInt64.ofNat n) >>> 16).toUInt8.toNat = n / 65536 % 256 := byte 16 (by decide)
        have b1 : ((UInt64.ofNat n) >>> 8).toUInt8.toNat = n / 256 % 256 := byte 8 (by decide)
        refine ⟨26, reads_behind below (by decide) rfl ?_⟩
        simp only [bigEndian, List.foldl_cons, List.foldl_nil, low, b1, b2, b3]
        omega

/-! ## The document -/

variable {depth : Nat} {bytes : Bytes} {value : Item}

private theorem reads_cborText (s : String) (fits : s.toUTF8.data.toList.length < 2 ^ 32) :
    Reads (item (depth + 1)) (cborText s) (.text s) := by
  obtain ⟨info, read⟩ := reads_cborHead 3 (by decide) fits
  exact reads_text (utf8_toUTF8 s) read

private theorem reads_cborBytesVal (b : Bytes) (fits : b.length < 2 ^ 32) :
    Reads (item (depth + 1)) (cborBytesVal b) (.bytes b) := by
  obtain ⟨info, read⟩ := reads_cborHead 2 (by decide) fits
  exact reads_bytes read

private theorem reads_cborUint {n : Nat} (fits : n < 2 ^ 32) :
    Reads (item (depth + 1)) (cborUint (UInt64.ofNat n)) (.unsigned n) := by
  obtain ⟨info, read⟩ := reads_cborHead 0 (by decide) fits
  exact reads_unsigned read

/-- A label and the value behind it. -/
private theorem reads_entry {key : Item} {mark : UInt8} (name : Reads (item (depth + 1)) [mark] key)
    (content : Reads (item (depth + 1)) bytes value) :
    Reads (pair (item (depth + 1)) (item (depth + 1))) (mark :: bytes) (key, value) :=
  reads_pair name content

/-- A map header and as many entries. -/
private theorem reads_record {entries : List (Bytes × (Item × Item))} (few : entries.length < 2 ^ 32)
    (each : ∀ entry ∈ entries, Reads (pair (item depth) (item depth)) entry.1 entry.2) :
    Reads (item (depth + 1)) (cborMapHeader entries.length ++ entries.flatMap Prod.fst)
      (.map (entries.map Prod.snd)) := by
  obtain ⟨info, read⟩ := reads_cborHead 5 (by decide) few
  exact reads_map read (reads_all each)

section
variable (serverUri : String) (serverPubkey networkKey : Bytes)

open Senml in
/-- The entries of the six records, with what each is read as. -/
def entries : List (List (Bytes × (Item × Item))) :=
  [[(bn :: cborText "/0/1/", .negative 1, .text "/0/1/"), (n :: cborText "0", .unsigned 0, .text "0"),
      (vs :: cborText serverUri, .unsigned 3, .text serverUri)],
    [(n :: cborText "1", .unsigned 0, .text "1"), ([vb, 0xf4], .unsigned 4, .simple 20)],
    [(n :: cborText "10", .unsigned 0, .text "10"), (v :: cborUint 1, .unsigned 2, .unsigned 1)],
    [(n :: cborText "2", .unsigned 0, .text "2"), (v :: cborUint 3, .unsigned 2, .unsigned 3)],
    [(n :: cborText "4", .unsigned 0, .text "4"),
      (vd :: cborBytesVal serverPubkey, .unsigned 8, .bytes serverPubkey)],
    [(n :: cborText "5", .unsigned 0, .text "5"),
      (vd :: cborBytesVal networkKey, .unsigned 8, .bytes networkKey)]]

/-- The records a device reads. -/
def readRecords : List Item :=
  (entries serverUri serverPubkey networkKey).map fun record => .map (record.map Prod.snd)

theorem encodeSecurityObject_eq :
    encodeSecurityObject serverUri serverPubkey networkKey = cborArrayHeader 6 ++
      (entries serverUri serverPubkey networkKey).flatMap fun record =>
        cborMapHeader record.length ++ record.flatMap Prod.fst := by
  simp [encodeSecurityObject, entries, List.append_assoc]

variable {serverUri serverPubkey networkKey}

private theorem reads_entries (uri : serverUri.toUTF8.data.toList.length < 2 ^ 32)
    (pubkey : serverPubkey.length < 2 ^ 32) (key : networkKey.length < 2 ^ 32) :
    ∀ record ∈ entries serverUri serverPubkey networkKey, ∀ entry ∈ record,
      Reads (pair (item (depth + 1)) (item (depth + 1))) entry.1 entry.2 := by
  have name {s : String} (fits : s.toUTF8.data.toList.length < 2 ^ 32) :
      Reads (pair (item (depth + 1)) (item (depth + 1))) (Senml.n :: cborText s) (.unsigned 0, .text s) :=
    reads_entry (reads_unsigned (reads_head_short 0x00 (by decide))) (reads_cborText s fits)
  have number {n : Nat} (fits : n < 2 ^ 32) :
      Reads (pair (item (depth + 1)) (item (depth + 1))) (Senml.v :: cborUint (UInt64.ofNat n))
        (.unsigned 2, .unsigned n) :=
    reads_entry (reads_unsigned (reads_head_short 0x02 (by decide))) (reads_cborUint fits)
  have data {b : Bytes} (fits : b.length < 2 ^ 32) :
      Reads (pair (item (depth + 1)) (item (depth + 1))) (Senml.vd :: cborBytesVal b)
        (.unsigned 8, .bytes b) :=
    reads_entry (reads_unsigned (reads_head_short 0x08 (by decide))) (reads_cborBytesVal b fits)
  have base : Reads (pair (item (depth + 1)) (item (depth + 1))) (Senml.bn :: cborText "/0/1/")
      (.negative 1, .text "/0/1/") :=
    reads_entry (reads_negative (reads_head_short 0x21 (by decide))) (reads_cborText _ (by decide))
  have content : Reads (pair (item (depth + 1)) (item (depth + 1))) (Senml.vs :: cborText serverUri)
      (.unsigned 3, .text serverUri) :=
    reads_entry (reads_unsigned (reads_head_short 0x03 (by decide))) (reads_cborText _ uri)
  have flag : Reads (pair (item (depth + 1)) (item (depth + 1))) [Senml.vb, 0xf4]
      (.unsigned 4, .simple 20) :=
    reads_entry (reads_unsigned (reads_head_short 0x04 (by decide)))
      (reads_simple (reads_head_short 0xf4 (by decide)) (by decide))
  simp only [entries, List.forall_mem_cons, List.not_mem_nil, false_imp_iff,
    implies_true, and_true]
  exact ⟨⟨base, name (by decide), content⟩, ⟨name (by decide), flag⟩,
    ⟨name (by decide), number (by decide)⟩, ⟨name (by decide), number (by decide)⟩,
    ⟨name (by decide), data pubkey⟩, name (by decide), data key⟩

private theorem reads_records (uri : serverUri.toUTF8.data.toList.length < 2 ^ 32)
    (pubkey : serverPubkey.length < 2 ^ 32) (key : networkKey.length < 2 ^ 32) :
    Reads (times (item (depth + 2)) 6)
      ((entries serverUri serverPubkey networkKey).flatMap fun record =>
        cborMapHeader record.length ++ record.flatMap Prod.fst)
      (readRecords serverUri serverPubkey networkKey) := by
  have each : ∀ part ∈ (entries serverUri serverPubkey networkKey).map (fun record =>
      (cborMapHeader record.length ++ record.flatMap Prod.fst, Item.map (record.map Prod.snd))),
      Reads (item (depth + 2)) part.1 part.2 := by
    intro part member
    obtain ⟨record, inside, rfl⟩ := List.mem_map.mp member
    refine reads_record ?_ (reads_entries uri pubkey key record inside)
    simp only [entries, List.mem_cons, List.not_mem_nil, or_false] at inside
    rcases inside with rfl | rfl | rfl | rfl | rfl | rfl <;> simp only [List.length_cons, List.length_nil] <;>
      decide
  exact reads_all each

/-- **The provisioning payload decodes to what was meant**, and every length is
read back from its head. -/
theorem securityObject_decodes (uri : serverUri.utf8ByteSize < 2 ^ 32)
    (pubkey : serverPubkey.length < 2 ^ 32) (key : networkKey.length < 2 ^ 32) :
    (∃ records, decode (encodeSecurityObject serverUri serverPubkey networkKey) = some (.array records) ∧
      records.length = 6 ∧
      resolve "" records = some [("/0/1/0", .text serverUri), ("/0/1/1", .simple 20),
        ("/0/1/10", .unsigned 1), ("/0/1/2", .unsigned 3), ("/0/1/4", .bytes serverPubkey),
        ("/0/1/5", .bytes networkKey)]) ∧
    ∀ major n, major < 8 → n < 2 ^ 32 → ∃ info,
      Reads head (cborHead (UInt8.ofNat major) (UInt64.ofNat n)) ⟨major, info, some n⟩ := by
  refine ⟨⟨readRecords serverUri serverPubkey networkKey, decode_of_reads ?_, rfl, ?_⟩, ?_⟩
  · obtain ⟨depth, deep⟩ : ∃ depth,
        (encodeSecurityObject serverUri serverPubkey networkKey).length = depth + 2 := by
      refine ⟨(encodeSecurityObject serverUri serverPubkey networkKey).length - 2, ?_⟩
      have short : 2 ≤ (encodeSecurityObject serverUri serverPubkey networkKey).length := by
        have array : (cborArrayHeader 6).length = 1 := rfl
        have map : (cborMapHeader 3).length = 1 := rfl
        simp only [encodeSecurityObject, List.length_append, array, map]
        omega
      omega
    obtain ⟨info, read⟩ := @reads_cborHead 6 4 (by decide) (by decide)
    rw [deep, encodeSecurityObject_eq]
    exact reads_array read (reads_records uri pubkey key)
  · rfl
  · exact fun major n below fits => reads_cborHead major below fits

theorem securityObject_decodes_gateway : ∃ records,
    decode (encodeSecurityObject "coaps://gateway" [4] (List.replicate 32 7)) = some (.array records) ∧
      (resolve "" records).map List.head? = some (some ("/0/1/0", .text "coaps://gateway")) := by
  obtain ⟨⟨records, read, -, resolved⟩, -⟩ := @securityObject_decodes "coaps://gateway" [4]
    (List.replicate 32 7) (by decide) (by decide) (by rw [List.length_replicate]; decide)
  exact ⟨records, read, by rw [resolved]; rfl⟩

end
end Lwm2mServer.SecurityObject
