import Lwm2mServer.Model

/-! `DerItemIter` of `bootstrap.rs` and the checks of a device certificate that
run before its signature is checked. Both gateways have 32-bit words, and
additions wrap there in release builds: an item that claims nearly `2 ^ 32`
bytes ends, for the iterator, before it begins. -/
namespace Lwm2mServer.DerItems

/-- `usize` addition of a release build on the gateways. -/
def wrappingAdd (a b : Nat) : Nat := (a + b) % 2 ^ 32

/-- `&data[start..stop]`; `none` is the panic. -/
def slice (data : Bytes) (start stop : Nat) : Option Bytes :=
  if start ≤ stop ∧ stop ≤ data.length then some ((data.take stop).drop start) else none

structure DerItemIter where
  data : Bytes
  pos : Nat

namespace DerItemIter

def new (data : Bytes) : DerItemIter := ⟨data, 0⟩

/-- The loop over the bytes of a long-form length: the length so far and the
position. -/
def readLength (data : Bytes) : Nat → Nat → Nat → Option (Nat × Nat)
  | 0, length, pos => some (length, pos)
  | n + 1, length, pos => do
    let byte ← data[pos]?
    readLength data n ((length <<< 8 ||| byte.toNat) % 2 ^ 32) (wrappingAdd pos 1)

/-- The end of `next`, once the length is known. -/
def takeValue (data : Bytes) (tag : UInt8) (length pos : Nat) :
    Option (Option (UInt8 × Bytes) × DerItemIter) :=
  let stop := wrappingAdd pos length
  if data.length < stop then some (none, ⟨data, pos⟩)
  else (slice data pos stop).map fun value => (some (tag, value), ⟨data, stop⟩)

/-- `next`: the item, if any, and the iterator after the call; `none` when the
call panics. -/
def next (iter : DerItemIter) : Option (Option (UInt8 × Bytes) × DerItemIter) :=
  let data := iter.data
  if data.length ≤ wrappingAdd iter.pos 1 then some (none, iter)
  else do
    let tag ← data[iter.pos]?
    let pos := wrappingAdd iter.pos 1
    let first ← data[pos]?
    let pos := wrappingAdd pos 1
    if first < 0x80 then takeValue data tag first.toNat pos
    else
      let n := (first &&& 0x7f).toNat
      if n = 0 ∨ 4 < n ∨ data.length < wrappingAdd pos n then return (none, ⟨data, pos⟩)
      else
        let (length, pos) ← readLength data n 0 pos
        takeValue data tag length pos

/-- `Iterator::any`, with a bound on the calls of `next`. -/
def any (pred : UInt8 × Bytes → Bool) : Nat → DerItemIter → Option Bool
  | 0, _ => some false
  | fuel + 1, iter => do
    match ← iter.next with
    | (none, _) => return false
    | (some item, iter) => if pred item then return true else any pred fuel iter

end DerItemIter

/-- `cert_check_key_usage` for the value `find_extension` returned. -/
def certCheckKeyUsage (extVal : Option Bytes) : Option (Except String Unit) :=
  match extVal with
  | none => some (.error "missing KeyUsage extension")
  | some extVal => do
    match ← (DerItemIter.new extVal).next with
    | (some (0x03, bs), _) =>
      if bs.length < 2 then return .error "digitalSignature not set"
      else
        let byte ← bs[1]?
        return if byte &&& 0x80 = 0 then .error "digitalSignature not set" else .ok ()
    | _ => return .error "KeyUsage: expected BIT STRING"

/-- The object identifier of `id-kp-clientAuth`. -/
def clientAuth : Bytes := [0x2b, 0x06, 0x01, 0x05, 0x05, 0x07, 0x03, 0x02]

def isClientAuth (item : UInt8 × Bytes) : Bool := item.1 = 0x06 && item.2 = clientAuth

/-- `cert_check_eku`. Every item takes at least two bytes, so there are not more
calls of `next` than bytes. -/
def certCheckEku (extVal : Option Bytes) : Option (Except String Unit) :=
  match extVal with
  | none => some (.error "missing ExtendedKeyUsage extension")
  | some extVal => do
    match ← (DerItemIter.new extVal).next with
    | (some (0x30, seq), _) =>
      let found ← DerItemIter.any isClientAuth (seq.length + 1) (.new seq)
      return if found then .ok () else .error "clientAuth not in ExtendedKeyUsage"
    | _ => return .error "EKU: expected SEQUENCE"

/-! ## What stands in the data -/

/-- The number that bytes stand for, most significant first. -/
def bigEndian (bytes : Bytes) : Nat := bytes.foldl (fun n byte => n * 256 + byte.toNat) 0

/-- The header at a position: where it ends and the length it states, if it is
whole and has a length of at most four bytes. -/
def headerAt (data : Bytes) (pos : Nat) : Option (Nat × Nat) :=
  match data.drop pos with
  | _ :: first :: rest =>
    if first < 0x80 then some (pos + 2, first.toNat)
    else
      let n := (first &&& 0x7f).toNat
      if n = 0 ∨ 4 < n ∨ rest.length < n then none
      else some (pos + 2 + n, bigEndian (rest.take n))
  | _ => none

/-- The item at a position states a length that reaches beyond what a word can
count. -/
def Overlong (data : Bytes) (pos : Nat) : Prop :=
  ∃ start length, headerAt data pos = some (start, length) ∧ 2 ^ 32 ≤ start + length

instance (data : Bytes) (pos : Nat) : Decidable (Overlong data pos) :=
  match header : headerAt data pos with
  | none => isFalse fun ⟨_, _, found, _⟩ => by rw [header] at found; cases found
  | some (start, length) =>
    if reaches : 2 ^ 32 ≤ start + length then isTrue ⟨start, length, header, reaches⟩
    else isFalse fun ⟨_, _, found, reaches'⟩ => by
      rw [header] at found
      cases found
      exact reaches reaches'

/-- The item at a position, if it is whole, and where the next one begins. -/
def itemAt (data : Bytes) (pos : Nat) : Option ((UInt8 × Bytes) × Nat) := do
  let tag ← data[pos]?
  let (start, length) ← headerAt data pos
  if start + length ≤ data.length then
    return ((tag, (data.take (start + length)).drop start), start + length)
  else none

/-- `next` returns, the position stays inside the data and does not go back,
and a value that is returned is the part of the data before the position. -/
def Sound (data : Bytes) (pos : Nat) : Prop :=
  ∃ item iter, DerItemIter.next ⟨data, pos⟩ = some (item, iter) ∧ iter.data = data ∧
    pos ≤ iter.pos ∧ iter.pos ≤ data.length ∧
    ∀ tag value, item = some (tag, value) →
      ∃ start, pos ≤ start ∧ start ≤ iter.pos ∧ value = (data.take iter.pos).drop start

/-- The positions `any` comes to: it goes on from an item that does not pass. -/
inductive Comes (pred : UInt8 × Bytes → Bool) (data : Bytes) : Nat → Nat → Prop where
  | here : Comes pred data pos pos
  | on (found : itemAt data pos = some (item, stop)) (fails : pred item = false)
      (later : Comes pred data stop probe) : Comes pred data pos probe

/-! ## One call -/

variable {data : Bytes} {pos start length : Nat}

open DerItemIter

private theorem wrappingAdd_of_lt {a b : Nat} (small : a + b < 2 ^ 32) : wrappingAdd a b = a + b :=
  Nat.mod_eq_of_lt small

/-- Shifting a byte in is reading one more digit. -/
private theorem shiftIn (n : Nat) (byte : UInt8) : n <<< 8 ||| byte.toNat = n * 256 + byte.toNat := by
  rw [← Nat.shiftLeft_add_eq_or_of_lt byte.toNat_lt, Nat.shiftLeft_eq]

private theorem readLength_eq (small : data.length < 2 ^ 31) (n : Nat) (l pos : Nat)
    (enough : n ≤ (data.drop pos).length) (fits : (l + 1) * 256 ^ n ≤ 2 ^ 32) :
    readLength data n l pos =
      some (((data.drop pos).take n).foldl (fun n byte => n * 256 + byte.toNat) l, pos + n) := by
  induction n generalizing l pos with
  | zero => rfl
  | succ n ih =>
    cases rest : data.drop pos with
    | nil =>
      rw [rest] at enough
      cases enough
    | cons byte rest' =>
      have here : data[pos]? = some byte := by
        have head : (data.drop pos)[0]? = data[pos + 0]? := List.getElem?_drop
        rw [rest] at head
        exact head.symm
      have after : data.drop (pos + 1) = rest' := by
        rw [← List.drop_drop, rest]
        rfl
      have long : pos < data.length := (List.getElem?_eq_some_iff.mp here).1
      have digit := byte.toNat_lt
      have room : (l * 256 + byte.toNat + 1) * 256 ^ n ≤ 2 ^ 32 := calc
        (l * 256 + byte.toNat + 1) * 256 ^ n ≤ ((l + 1) * 256) * 256 ^ n :=
          Nat.mul_le_mul_right _ (by omega)
        _ = (l + 1) * 256 ^ (n + 1) := by rw [Nat.mul_assoc, Nat.pow_succ, Nat.mul_comm 256]
        _ ≤ 2 ^ 32 := fits
      have value : l * 256 + byte.toNat < 2 ^ 32 := by
        have one : 1 ≤ 256 ^ n := Nat.one_le_pow _ _ (by decide)
        have less := Nat.le_mul_of_pos_right (l * 256 + byte.toNat + 1) one
        omega
      rw [rest] at enough
      rw [readLength, here, Option.bind_eq_bind, Option.bind_some, shiftIn, Nat.mod_eq_of_lt value,
        wrappingAdd_of_lt (by omega), ih _ _ (by rw [after]; exact Nat.le_of_succ_le_succ enough) room,
        after, List.take_succ_cons, List.foldl_cons]
      congr 2
      omega

/-- A long-form length of at most four bytes fits into a word. -/
private theorem bigEndian_lt (bytes : Bytes) (l : Nat) :
    bytes.foldl (fun n byte => n * 256 + byte.toNat) l < (l + 1) * 256 ^ bytes.length := by
  induction bytes generalizing l with
  | nil => simp
  | cons byte rest ih =>
    have digit := byte.toNat_lt
    calc
      rest.foldl (fun n byte => n * 256 + byte.toNat) (l * 256 + byte.toNat)
          < (l * 256 + byte.toNat + 1) * 256 ^ rest.length := ih _
      _ ≤ ((l + 1) * 256) * 256 ^ rest.length := Nat.mul_le_mul_right _ (by omega)
      _ = (l + 1) * 256 ^ (rest.length + 1) := by
        rw [Nat.mul_assoc, Nat.pow_succ, Nat.mul_comm 256]

/-- Two bytes that stand at a position. -/
private theorem begins {tag first : UInt8} {rest : Bytes} (parts : data.drop pos = tag :: first :: rest) :
    data[pos]? = some tag ∧ data[pos + 1]? = some first ∧ data.length = pos + 2 + rest.length ∧
      data.drop (pos + 2) = rest := by
  have here (i : Nat) : data[pos + i]? = (tag :: first :: rest)[i]? := by
    rw [← parts, List.getElem?_drop]
  refine ⟨here 0, here 1, ?_, ?_⟩
  · have lengths := congrArg List.length parts
    simp only [List.length_drop, List.length_cons] at lengths
    omega
  · rw [← List.drop_drop, parts]
    rfl

/-- What `next` does with a header it can read. -/
private theorem next_of_header (small : data.length < 2 ^ 31)
    (header : headerAt data pos = some (start, length)) :
    ∃ tag, data[pos]? = some tag ∧ next ⟨data, pos⟩ = takeValue data tag length start ∧
      pos + 2 ≤ start ∧ start ≤ data.length ∧ length < 2 ^ 32 := by
  unfold headerAt at header
  split at header
  · rename_i tag first rest parts
    obtain ⟨tagged, second, size, after⟩ := begins parts
    have begun : ¬ data.length ≤ pos + 1 := by omega
    refine ⟨tag, tagged, ?_⟩
    simp only [next, wrappingAdd_of_lt (show pos + 1 < 2 ^ 32 by omega), if_neg begun, tagged,
      wrappingAdd_of_lt (show pos + 1 + 1 < 2 ^ 32 by omega), second, Option.bind_eq_bind,
      Option.bind_some]
    dsimp only at header
    split at header
    · rename_i short
      cases header
      have byte := first.toNat_lt
      exact ⟨if_pos short, by omega, by omega, by omega⟩
    · rename_i long
      split at header
      · cases header
      · rename_i whole
        cases header
        have count : (first &&& 0x7f).toNat ≤ rest.length := by omega
        have unread : ¬ ((first &&& 0x7f).toNat = 0 ∨ 4 < (first &&& 0x7f).toNat ∨
            data.length < wrappingAdd (pos + 1 + 1) (first &&& 0x7f).toNat) := by
          rw [wrappingAdd_of_lt (by omega)]
          omega
        have four : 256 ^ (first &&& 0x7f).toNat ≤ 256 ^ 4 :=
          Nat.pow_le_pow_right (by decide) (by omega)
        have read := readLength_eq small (first &&& 0x7f).toNat 0 (pos + 2)
          (by rw [after]; exact count) (by omega)
        have value := bigEndian_lt (rest.take (first &&& 0x7f).toNat) 0
        rw [List.length_take, Nat.min_eq_left count] at value
        refine ⟨?_, by omega, by omega, ?_⟩
        · rw [if_neg long, if_neg unread, read, after]
          rfl
        · exact Nat.lt_of_lt_of_le value (by omega)
  · cases header

/-- What `next` does with one it cannot read. -/
theorem next_of_noHeader (small : data.length < 2 ^ 31) (inside : pos ≤ data.length)
    (header : headerAt data pos = none) :
    ∃ after, next ⟨data, pos⟩ = some (none, ⟨data, after⟩) ∧ pos ≤ after ∧ after ≤ data.length := by
  unfold headerAt at header
  split at header
  · rename_i tag first rest parts
    obtain ⟨tagged, second, size, -⟩ := begins parts
    have begun : ¬ data.length ≤ pos + 1 := by omega
    refine ⟨pos + 2, ?_, by omega, by omega⟩
    dsimp only at header
    split at header
    · cases header
    · rename_i long
      split at header
      · rename_i cut
        have unread : (first &&& 0x7f).toNat = 0 ∨ 4 < (first &&& 0x7f).toNat ∨
            data.length < wrappingAdd (pos + 1 + 1) (first &&& 0x7f).toNat := by
          have byte := (first &&& 0x7f).toNat_lt
          rw [wrappingAdd_of_lt (by omega)]
          omega
        simp only [next, wrappingAdd_of_lt (show pos + 1 < 2 ^ 32 by omega), if_neg begun, tagged,
          wrappingAdd_of_lt (show pos + 1 + 1 < 2 ^ 32 by omega), second, Option.bind_eq_bind,
          Option.bind_some, if_neg long, if_pos unread]
        rfl
      · cases header
  · rename_i short
    refine ⟨pos, ?_, Nat.le_refl _, inside⟩
    have ended : data.length ≤ pos + 1 := by
      have size := List.length_drop (i := pos) (l := data)
      match left : data.drop pos with
      | [] | [_] =>
        rw [left] at size
        simp only [List.length_nil, List.length_cons] at size
        omega
      | _ :: _ :: _ => exact absurd left (short _ _ _)
    simp only [next, wrappingAdd_of_lt (show pos + 1 < 2 ^ 32 by omega), if_pos ended]

/-- A call on a whole header: the item is taken if it fits into the data, and
the call panics if the end of the item cannot be counted. -/
theorem next_of_fitting (small : data.length < 2 ^ 31)
    (header : headerAt data pos = some (start, length)) (short : start + length < 2 ^ 32) :
    ∃ tag, data[pos]? = some tag ∧ pos + 2 ≤ start ∧ start ≤ data.length ∧
      next ⟨data, pos⟩ =
        if start + length ≤ data.length then
          some (some (tag, (data.take (start + length)).drop start), ⟨data, start + length⟩)
        else some (none, ⟨data, start⟩) := by
  obtain ⟨tag, tagged, called, order, inside, -⟩ := next_of_header small header
  refine ⟨tag, tagged, order, inside, ?_⟩
  rw [called]
  simp only [takeValue, wrappingAdd_of_lt short]
  by_cases fits : start + length ≤ data.length
  · rw [if_neg (Nat.not_lt.mpr fits), if_pos fits, slice, if_pos ⟨Nat.le_add_right _ _, fits⟩]
    rfl
  · rw [if_pos (Nat.lt_of_not_le fits), if_neg fits]

theorem next_of_overlong (small : data.length < 2 ^ 31) (overlong : Overlong data pos) :
    next ⟨data, pos⟩ = none := by
  obtain ⟨start, length, header, reaches⟩ := overlong
  obtain ⟨tag, -, called, order, inside, word⟩ := next_of_header small header
  have wrapped : wrappingAdd start length = start + length - 2 ^ 32 := by
    rw [wrappingAdd]
    omega
  rw [called]
  simp only [takeValue, wrapped]
  rw [if_neg (by omega), slice, if_neg (by omega)]
  rfl

/-- A call is sound exactly if the item it comes to does not reach beyond what
a word can count. -/
theorem sound_iff (small : data.length < 2 ^ 31) (inside : pos ≤ data.length) :
    Sound data pos ↔ ¬ Overlong data pos := by
  constructor
  · rintro ⟨item, iter, called, -⟩ overlong
    rw [next_of_overlong small overlong] at called
    cases called
  · intro bounded
    cases header : headerAt data pos with
    | none =>
      obtain ⟨after, called, later, within⟩ := next_of_noHeader small inside header
      exact ⟨none, ⟨data, after⟩, called, rfl, later, within, fun _ _ other => by cases other⟩
    | some found =>
      obtain ⟨start, length⟩ := found
      have short : start + length < 2 ^ 32 :=
        Nat.lt_of_not_le fun reaches => bounded ⟨start, length, header, reaches⟩
      obtain ⟨tag, -, order, within, called⟩ := next_of_fitting small header short
      split at called
      · rename_i fits
        refine ⟨_, _, called, rfl, ?_, fits, ?_⟩
        · dsimp only
          omega
        · intro tag' value same
          cases same
          exact ⟨start, by omega, Nat.le_add_right _ _, rfl⟩
      · refine ⟨_, _, called, rfl, ?_, within, fun _ _ other => by cases other⟩
        dsimp only
        omega

/-! ## The checks of a certificate -/

/-- `any` returns exactly if it comes to no item that cannot be counted. -/
theorem any_isSome_iff (small : data.length < 2 ^ 31) (pred : UInt8 × Bytes → Bool) (fuel pos : Nat)
    (inside : pos ≤ data.length) (enough : data.length - pos < fuel) :
    (any pred fuel ⟨data, pos⟩).isSome ↔ ∀ probe, Comes pred data pos probe → ¬ Overlong data probe := by
  induction fuel generalizing pos with
  | zero => cases enough
  | succ fuel ih =>
    -- without an item to go on from, this position is the only one
    have alone (stops : ∀ item stop, itemAt data pos = some (item, stop) → pred item = true)
        (bounded : ¬ Overlong data pos) : ∀ probe, Comes pred data pos probe → ¬ Overlong data probe := by
      intro probe comes
      cases comes with
      | here => exact bounded
      | on found fails =>
        rw [stops _ _ found] at fails
        cases fails
    cases header : headerAt data pos with
    | none =>
      obtain ⟨after, called, -, -⟩ := next_of_noHeader small inside header
      rw [any, called]
      refine iff_of_true rfl (alone (fun item stop found => ?_) ?_)
      · simp [itemAt, header] at found
      · rintro ⟨start, length, other, -⟩
        rw [header] at other
        cases other
    | some found =>
      obtain ⟨start, length⟩ := found
      by_cases short : start + length < 2 ^ 32
      · have bounded : ¬ Overlong data pos := by
          rintro ⟨start', length', other, reaches⟩
          rw [header] at other
          cases other
          exact absurd short (Nat.not_lt.mpr reaches)
        obtain ⟨tag, tagged, order, within, called⟩ := next_of_fitting small header short
        rw [any, called]
        by_cases fits : start + length ≤ data.length
        · have item : itemAt data pos =
              some ((tag, (data.take (start + length)).drop start), start + length) := by
            simp [itemAt, tagged, header, fits]
          rw [if_pos fits]
          simp only [Option.bind_eq_bind, Option.bind_some]
          split
          · rename_i passes
            refine iff_of_true rfl (alone (fun other stop found => ?_) bounded)
            rw [item] at found
            cases found
            exact passes
          · rename_i fails
            rw [ih (start + length) fits (by omega)]
            constructor
            · intro later probe comes
              cases comes with
              | here => exact bounded
              | on found _ comes =>
                rw [item] at found
                cases found
                exact later probe comes
            · intro all probe comes
              exact all probe (.on item (Bool.eq_false_iff.mpr fails) comes)
        · rw [if_neg fits]
          refine iff_of_true rfl (alone (fun other stop found => ?_) bounded)
          simp [itemAt, tagged, header, fits] at found
      · have overlong : Overlong data pos := ⟨start, length, header, Nat.le_of_not_lt short⟩
        rw [any, next_of_overlong small overlong]
        refine iff_of_false (by simp) fun all => all pos .here overlong

/-- The first item of an extension value, as the checks take it. -/
private theorem next_eq_itemAt (small : data.length < 2 ^ 31) (bounded : ¬ Overlong data 0) :
    ∃ iter, next (.new data) = some ((itemAt data 0).map Prod.fst, iter) := by
  cases header : headerAt data 0 with
  | none =>
    obtain ⟨after, called, -, -⟩ := next_of_noHeader small (Nat.zero_le _) header
    refine ⟨⟨data, after⟩, ?_⟩
    rw [DerItemIter.new, called]
    simp [itemAt, header]
  | some found =>
    obtain ⟨start, length⟩ := found
    have short : start + length < 2 ^ 32 :=
      Nat.lt_of_not_le fun reaches => bounded ⟨start, length, header, reaches⟩
    obtain ⟨tag, tagged, -, -, called⟩ := next_of_fitting small header short
    rw [DerItemIter.new, called]
    split
    · rename_i fits
      exact ⟨⟨data, start + length⟩, by simp [itemAt, tagged, header, fits]⟩
    · rename_i beyond
      exact ⟨⟨data, start⟩, by simp [itemAt, tagged, header, beyond]⟩

/-- The key usage check returns exactly if it can count its first item. -/
theorem certCheckKeyUsage_isSome_iff (small : data.length < 2 ^ 31) :
    (certCheckKeyUsage (some data)).isSome ↔ ¬ Overlong data 0 := by
  constructor
  · intro returns overlong
    have panics : next (.new data) = none := next_of_overlong small overlong
    simp [certCheckKeyUsage, panics] at returns
  · intro bounded
    obtain ⟨iter, called⟩ := next_eq_itemAt small bounded
    simp only [certCheckKeyUsage, called, Option.bind_eq_bind, Option.bind_some]
    split
    · rename_i bs _ _
      split
      · rfl
      · rename_i long
        have second : bs[1]? = some bs[1] := List.getElem?_eq_getElem (by omega)
        rw [second]
        rfl
    · rfl

/-- The extended key usage check returns exactly if it can count its first item
and, where that is a sequence, every item it comes to inside. -/
theorem certCheckEku_isSome_iff (small : data.length < 2 ^ 31) :
    (certCheckEku (some data)).isSome ↔ ¬ Overlong data 0 ∧
      ∀ seq stop, itemAt data 0 = some ((0x30, seq), stop) →
        ∀ probe, Comes isClientAuth seq 0 probe → ¬ Overlong seq probe := by
  by_cases overlong : Overlong data 0
  · have panics : next (.new data) = none := next_of_overlong small overlong
    refine iff_of_false (by simp [certCheckEku, panics]) fun both => both.1 overlong
  · obtain ⟨iter, called⟩ := next_eq_itemAt small overlong
    simp only [certCheckEku, called, Option.bind_eq_bind, Option.bind_some]
    cases found : itemAt data 0 with
    | none => exact iff_of_true rfl ⟨overlong, fun _ _ other => by cases other⟩
    | some item =>
      obtain ⟨⟨tag, seq⟩, stop⟩ := item
      by_cases sequence : tag = 0x30
      · subst sequence
        have within : seq.length < 2 ^ 31 := by
          refine Nat.lt_of_le_of_lt ?_ small
          simp only [itemAt, Option.bind_eq_bind, Option.bind_eq_some_iff] at found
          obtain ⟨_, -, _, -, taken⟩ := found
          split at taken
          · cases taken
            simp only [List.length_drop, List.length_take]
            omega
          · cases taken
        have inner := any_isSome_iff within isClientAuth (seq.length + 1) 0 (Nat.zero_le _)
          (by omega)
        constructor
        · intro returns
          refine ⟨overlong, fun seq' stop' same => ?_⟩
          cases same
          apply inner.mp
          cases ran : any isClientAuth (seq.length + 1) ⟨seq, 0⟩ with
          | none =>
            simp only [Option.map_some, DerItemIter.new, ran] at returns
            cases returns
          | some _ => rfl
        · rintro ⟨-, all⟩
          obtain ⟨result, ran⟩ := Option.isSome_iff_exists.mp (inner.mpr (all seq stop rfl))
          simp only [Option.map_some, DerItemIter.new, ran]
          rfl
      · refine iff_of_true ?_ ⟨overlong, fun seq' stop' same => ?_⟩
        · simp only [Option.map_some]
          split
          · rename_i same
            simp only [Prod.mk.injEq, Option.some.injEq] at same
            exact absurd same.1.1 sequence
          · rfl
        · cases same
          exact absurd rfl sequence

/-- What holds of the certificate checks on a gateway, for every slice there can
be in its address space: a call of `next` is sound exactly if the item it comes
to can be counted in a word, and the two checks return exactly if that holds of
the items they come to. -/
theorem der_sound_iff (data : Bytes) (addressable : data.length < 2 ^ 31) :
    (∀ pos ≤ data.length, Sound data pos ↔ ¬ Overlong data pos) ∧
    ((certCheckKeyUsage (some data)).isSome ↔ ¬ Overlong data 0) ∧
    ((certCheckEku (some data)).isSome ↔ ¬ Overlong data 0 ∧
      ∀ seq stop, itemAt data 0 = some ((0x30, seq), stop) →
        ∀ probe, Comes isClientAuth seq 0 probe → ¬ Overlong seq probe) :=
  ⟨fun _ inside => sound_iff addressable inside, certCheckKeyUsage_isSome_iff addressable,
    certCheckEku_isSome_iff addressable⟩

/-- A key usage that allows signatures: the call is sound and the check passes. -/
theorem signingUsage_sound :
    Sound [0x03, 0x02, 0x07, 0x80] 0 ∧ (certCheckKeyUsage (some [0x03, 0x02, 0x07, 0x80])).isSome := by
  have all := der_sound_iff [0x03, 0x02, 0x07, 0x80] (by decide)
  have bounded : ¬ Overlong [0x03, 0x02, 0x07, 0x80] 0 := by decide
  exact ⟨(all.1 0 (by decide)).mpr bounded, all.2.1.mpr bounded⟩

/-- A bit string that claims `2 ^ 32 - 1` bytes: `next` slices from 6 to 5. -/
theorem fourByteLength_panics :
    ¬ Sound [0x03, 0x84, 0xff, 0xff, 0xff, 0xff] 0 ∧
      certCheckKeyUsage (some [0x03, 0x84, 0xff, 0xff, 0xff, 0xff]) = none := by
  refine ⟨?_, by decide⟩
  rintro ⟨item, iter, called, -⟩
  have panics : next ⟨[0x03, 0x84, 0xff, 0xff, 0xff, 0xff], 0⟩ = none := by decide
  rw [panics] at called
  cases called

end Lwm2mServer.DerItems
