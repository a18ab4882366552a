import Mathlib.Algebra.GroupWithZero.Nat
import Lwm2mServer.DerItems

/-! DER as it is written, and that `DerItemIter` reads it back item by item. A
length is a single byte, or a count of one to four bytes that follow; the bytes
need not be as few as possible. -/
namespace Lwm2mServer.DerItems
open DerItemIter

/-- How a length is written. -/
inductive LengthForm where
  | short
  | long (bytes : Bytes)

namespace LengthForm

/-- The form can state the length. -/
def States (length : Nat) : LengthForm → Prop
  | .short => length < 0x80
  | .long bytes => 1 ≤ bytes.length ∧ bytes.length ≤ 4 ∧ bigEndian bytes = length

instance (length : Nat) : (form : LengthForm) → Decidable (form.States length)
  | .short => inferInstanceAs (Decidable (length < 0x80))
  | .long bytes =>
    inferInstanceAs (Decidable (1 ≤ bytes.length ∧ bytes.length ≤ 4 ∧ bigEndian bytes = length))

def encode (length : Nat) : LengthForm → Bytes
  | .short => [UInt8.ofNat length]
  | .long bytes => UInt8.ofNat (0x80 + bytes.length) :: bytes

end LengthForm

structure DerItem where
  tag : UInt8
  value : Bytes
  form : LengthForm
  states : form.States value.length

namespace DerItem

def header (item : DerItem) : Bytes := item.tag :: item.form.encode item.value.length

def encode (item : DerItem) : Bytes := item.header ++ item.value

def pair (item : DerItem) : UInt8 × Bytes := (item.tag, item.value)

end DerItem

/-- Calls of `next` that return items, one after another. -/
inductive Yields : DerItemIter → List (UInt8 × Bytes) → DerItemIter → Prop where
  | done : Yields iter [] iter
  | item (called : iter.next = some (some found, after)) (rest : Yields after items last) :
      Yields iter (found :: items) last

/-- `tbs_bytes_from_cert_der`; the outer `none` is a panic. -/
def tbsBytesFromCertDer (certDer : Bytes) : Option (Option Bytes) := do
  match ← (DerItemIter.new certDer).next with
  | (some (0x30, certContent), _) =>
    match ← (DerItemIter.new certContent).next with
    | (none, _) => return none
    | (some _, inner) => return some (← slice certContent 0 inner.pos)
  | _ => return none

variable {item outer first : DerItem} {front rest trailing : Bytes}

/-! ## One item -/

/-- The first byte of a long form. -/
private theorem long_byte {n : Nat} (some_ : 1 ≤ n) (few : n ≤ 4) :
    ¬UInt8.ofNat (0x80 + n) < 0x80 ∧ (UInt8.ofNat (0x80 + n) &&& 0x7f).toNat = n := by
  match n, some_, few with
  | 1, _, _ | 2, _, _ | 3, _, _ | 4, _, _ => decide

/-- The header of an item that stands in some data. -/
private theorem headerAt_encode (item : DerItem) (front rest : Bytes) :
    headerAt (front ++ item.encode ++ rest) front.length =
      some (front.length + item.header.length, item.value.length) := by
  have behind : (front ++ item.encode ++ rest).drop front.length =
      item.tag :: (item.form.encode item.value.length ++ item.value ++ rest) := by
    simp [DerItem.encode, DerItem.header]
  have stated := item.states
  rw [headerAt, behind, DerItem.header]
  cases form : item.form with
  | short =>
    rw [form] at stated
    have small : item.value.length < 0x80 := stated
    have byte : (UInt8.ofNat item.value.length).toNat = item.value.length :=
      Nat.mod_eq_of_lt (Nat.lt_trans small (by decide))
    have below : UInt8.ofNat item.value.length < 0x80 := by
      rw [UInt8.lt_iff_toNat_lt, byte]
      exact small
    simp [LengthForm.encode, below, byte]
  | long bytes =>
    rw [form] at stated
    obtain ⟨one, four, value⟩ := stated
    obtain ⟨high, count⟩ := long_byte one four
    have whole : ¬(bytes.length = 0 ∨ 4 < bytes.length ∨
        (bytes ++ item.value ++ rest).length < bytes.length) := by
      simp only [List.length_append]
      omega
    simp only [LengthForm.encode, List.cons_append, count]
    rw [if_neg high, if_neg whole, List.append_assoc, List.take_left, value]
    simp only [List.length_cons]
    congr 2
    omega

/-- **A call reads the item that stands at the position**, and goes behind it. -/
theorem next_encode (item : DerItem) (front rest : Bytes)
    (small : (front ++ item.encode ++ rest).length < 2 ^ 31) :
    next ⟨front ++ item.encode ++ rest, front.length⟩ =
      some (some item.pair, ⟨front ++ item.encode ++ rest, (front ++ item.encode).length⟩) := by
  have header := headerAt_encode item front rest
  have size : (front ++ item.encode ++ rest).length =
      front.length + item.header.length + item.value.length + rest.length := by
    simp only [List.length_append, DerItem.encode]
    omega
  obtain ⟨tag, tagged, -, -, called⟩ := next_of_fitting small header (by omega)
  have here : tag = item.tag := by
    have first : (front ++ item.encode ++ rest)[front.length]? = some item.tag := by
      simp [DerItem.encode, DerItem.header]
    exact Option.some.inj (tagged.symm.trans first)
  have value : ((front ++ item.encode ++ rest).take
      (front.length + item.header.length + item.value.length)).drop (front.length + item.header.length) =
        item.value := by
    have parts : front ++ item.encode ++ rest = (front ++ item.header) ++ item.value ++ rest := by
      simp [DerItem.encode]
    rw [parts, ← List.length_append, ← List.length_append, List.take_left, List.drop_left]
  rw [called, if_pos (by omega), value, here]
  congr 3
  simp only [List.length_append, DerItem.encode]
  omega

/-! ## All items -/

private theorem yields_encode (items : List DerItem) (front : Bytes)
    (small : (front ++ items.flatMap (·.encode)).length < 2 ^ 31) :
    Yields ⟨front ++ items.flatMap (·.encode), front.length⟩ (items.map (·.pair))
      ⟨front ++ items.flatMap (·.encode), (front ++ items.flatMap (·.encode)).length⟩ := by
  induction items generalizing front with
  | nil => simpa using Yields.done
  | cons item rest ih =>
    have split_ : front ++ (item :: rest).flatMap (·.encode) =
        front ++ item.encode ++ rest.flatMap (·.encode) := by simp
    rw [split_] at small ⊢
    exact .item (next_encode item front _ small) (ih (front ++ item.encode) small)

/-- There is nothing behind the last byte. -/
private theorem next_end (data : Bytes) (small : data.length < 2 ^ 31) :
    next ⟨data, data.length⟩ = some (none, ⟨data, data.length⟩) := by
  have ended : data.length ≤ wrappingAdd data.length 1 := by
    rw [wrappingAdd]
    omega
  rw [next]
  exact if_pos ended

/-- **The iterator reads back what was written**, and the bytes cut out for the
signature are those of the first item inside the outer one. -/
theorem der_encoding_exact :
    (∀ items : List DerItem, (items.flatMap (·.encode)).length < 2 ^ 31 →
      ∃ last, Yields (.new (items.flatMap (·.encode))) (items.map (·.pair)) last ∧
        last.next = some (none, last)) ∧
    ∀ (outer first : DerItem) (rest trailing : Bytes), outer.tag = 0x30 →
      outer.value = first.encode ++ rest → (outer.encode ++ trailing).length < 2 ^ 31 →
      tbsBytesFromCertDer (outer.encode ++ trailing) = some (some first.encode) := by
  constructor
  · intro items small
    exact ⟨_, yields_encode items [] small, next_end _ small⟩
  · intro outer first rest trailing sequence content small
    have inside : (first.encode ++ rest).length < 2 ^ 31 := by
      rw [← content]
      refine Nat.lt_of_le_of_lt ?_ small
      simp only [List.length_append, DerItem.encode]
      omega
    have begins : next (.new (outer.encode ++ trailing)) =
        some (some (0x30, first.encode ++ rest), ⟨outer.encode ++ trailing, outer.encode.length⟩) := by
      have called := next_encode outer [] trailing small
      rw [DerItem.pair, sequence, content] at called
      exact called
    have signed : next (.new (first.encode ++ rest)) =
        some (some first.pair, ⟨first.encode ++ rest, first.encode.length⟩) :=
      next_encode first [] rest inside
    have cut : slice (first.encode ++ rest) 0 first.encode.length = some first.encode := by
      rw [slice, if_pos ⟨Nat.zero_le _, by simp⟩, List.take_left]
      rfl
    simp only [tbsBytesFromCertDer, begins, signed, cut, Option.bind_eq_bind, Option.bind_some,
      Option.pure_def]

/-- The first item of a certificate. -/
def signed : DerItem := ⟨0x30, [0x05, 0x00], .short, by decide⟩

/-- An empty value behind a length of two bytes. -/
def signature : DerItem := ⟨0x03, [], .long [0x00, 0x00], by decide⟩

theorem der_encoding_exact_certificate :
    tbsBytesFromCertDer [0x30, 0x81, 0x08, 0x30, 0x02, 0x05, 0x00, 0x03, 0x82, 0x00, 0x00, 0xff] =
        some (some [0x30, 0x02, 0x05, 0x00]) ∧
      ∃ last, Yields (.new [0x30, 0x02, 0x05, 0x00, 0x03, 0x82, 0x00, 0x00])
        [(0x30, [0x05, 0x00]), (0x03, [])] last ∧ last.next = some (none, last) :=
  ⟨der_encoding_exact.2 ⟨0x30, signed.encode ++ signature.encode, .long [0x08], by decide⟩ signed
      signature.encode [0xff] rfl rfl (by decide),
    der_encoding_exact.1 [signed, signature] (by decide)⟩

end Lwm2mServer.DerItems
