import Lwm2mServer.Json
import Lwm2mServer.Library.Slices
import Lwm2mServer.NetworkKey

/-! The key file, `config.rs`. The hex text is cut by bytes, two at a time; a
cut inside a character is a panic, and what is behind the first pair that is
no number is not looked at. Nothing there asks for 16 bytes. -/
namespace Lwm2mServer
open Library

/-- `char::to_digit(16)`. -/
def hexDigit (c : Char) : Option Nat :=
  if '0' ≤ c ∧ c ≤ '9' then some (c.toNat - '0'.toNat)
  else if 'a' ≤ c ∧ c ≤ 'f' then some (c.toNat - 'a'.toNat + 10)
  else if 'A' ≤ c ∧ c ≤ 'F' then some (c.toNat - 'A'.toNat + 10)
  else none

/-- `u8::from_str_radix(text, 16)`: a plus sign may stand before the digits. -/
def u8FromStrRadix16 (text : List Char) : Except String UInt8 :=
  if text = [] then .error "cannot parse integer from empty string"
  else
    let digits := match text with
      | '+' :: digit :: rest => digit :: rest
      | _ => text
    match digits.mapM hexDigit with
    | none => .error "invalid digit found in string"
    | some values =>
      let value := values.foldl (fun acc digit => acc * 16 + digit) 0
      if value < 256 then .ok (UInt8.ofNat value)
      else .error "number too large to fit in target type"

/-- The pairs from a byte position on; the first error ends the `collect`. -/
def hexPairs (text : List Char) (i : Nat) : Nat → Option (Except String Bytes)
  | 0 => some (.ok [])
  | n + 1 => do
    let pair ← sliceBytes i (i + 2) text
    match u8FromStrRadix16 pair with
    | .error e => return .error e
    | .ok byte =>
      let rest ← hexPairs text (i + 2) n
      return rest.map (byte :: ·)

/-- `decode_hex`; `none` is a panic. -/
def decodeHex (s : String) : Option (Except String Bytes) :=
  if byteLen s.toList % 2 ≠ 0 then some (.error "odd length")
  else hexPairs s.toList 0 (byteLen s.toList / 2)

/-- `load_network_key`, with what `read_to_string` gives for the file and
`serde_json::from_str` for its text. -/
def loadNetworkKey (fromStr : String → Except String Json) (path : String) (file : Except String String) :
    Option (Except Error Bytes) :=
  match file with
  | .error e => some (.error (.config s!"cannot read {path}: {e}"))
  | .ok content => match fromStr content with
    | .error e => some (.error (.json e))
    | .ok json => match (json.get "network_key").asStr with
      | none => some (.error (.config "\"network_key\" missing or not a string in key file"))
      | some hexStr =>
        (decodeHex hexStr).map (Except.mapError fun e => .config s!"invalid hex in network_key: {e}")

/-- Two characters that are one byte in hex, or a sign and a digit. -/
def HexPair (a b : Char) : Prop := ((hexDigit a).isSome ∨ a = '+') ∧ (hexDigit b).isSome

instance decidableHexPair (a b : Char) : Decidable (HexPair a b) :=
  inferInstanceAs (Decidable ((_ ∨ _) ∧ _))

/-- The two bytes at the start of a text are cut out as text that is no
number. -/
def Refused (text : List Char) : Prop :=
  (∃ c rest, text = c :: rest ∧ c.utf8Size = 2) ∨
    ∃ a b rest, text = a :: b :: rest ∧ a.utf8Size = 1 ∧ b.utf8Size = 1 ∧ ¬ HexPair a b

/-- The text consists of a good number of pairs, or some pairs are followed by
one that is refused. -/
def KeyText (good : Nat → Prop) (text : List Char) : Prop :=
  ∃ (pairs : List (Char × Char)) (rest : List Char),
    text = pairs.flatMap (fun p => [p.1, p.2]) ++ rest ∧ (∀ p ∈ pairs, HexPair p.1 p.2) ∧
      (rest = [] ∧ good pairs.length ∨ Refused rest)

/-! ## Pairs -/

private theorem hexDigit_cases {c : Char} {value : Nat} (digit : hexDigit c = some value) :
    c ≤ 'f' ∧ value < 16 := by
  have below {last : Char} (high : c ≤ last) : c.toNat ≤ last.toNat := UInt32.le_iff_toNat_le.mp high
  unfold hexDigit at digit
  split at digit
  · rename_i range
    have bound : c.toNat ≤ 57 := below range.2
    cases digit
    refine ⟨Char.le_trans range.2 (by decide), ?_⟩
    change c.toNat - 48 < 16
    omega
  · split at digit
    · rename_i range
      have bound : c.toNat ≤ 102 := below range.2
      cases digit
      refine ⟨range.2, ?_⟩
      change c.toNat - 97 + 10 < 16
      omega
    · split at digit
      · rename_i range
        have bound : c.toNat ≤ 70 := below range.2
        cases digit
        refine ⟨Char.le_trans range.2 (by decide), ?_⟩
        change c.toNat - 65 + 10 < 16
        omega
      · cases digit

/-- A digit in hex is one byte. -/
theorem utf8Size_of_hexDigit {c : Char} (digit : (hexDigit c).isSome) : c.utf8Size = 1 := by
  obtain ⟨value, held⟩ := Option.isSome_iff_exists.mp digit
  refine Char.utf8Size_eq_one_iff.mpr ?_
  exact UInt32.le_trans (hexDigit_cases held).1 (by decide)

theorem utf8Size_of_hexPair {a b : Char} (pair : HexPair a b) : a.utf8Size = 1 ∧ b.utf8Size = 1 := by
  refine ⟨?_, utf8Size_of_hexDigit pair.2⟩
  rcases pair.1 with digit | rfl
  · exact utf8Size_of_hexDigit digit
  · rfl

theorem u8FromStrRadix16_pair (a b : Char) :
    (∃ byte, u8FromStrRadix16 [a, b] = .ok byte) ↔ HexPair a b := by
  unfold HexPair
  by_cases plus : a = '+'
  · subst plus
    cases low : hexDigit b with
    | none => simp [u8FromStrRadix16, low]
    | some value =>
      have small := (hexDigit_cases low).2
      simp [u8FromStrRadix16, low, show value < 256 by omega]
  · cases high : hexDigit a with
    | none => simp [u8FromStrRadix16, plus, high]
    | some value =>
      cases low : hexDigit b with
      | none => simp [u8FromStrRadix16, plus, high, low]
      | some value' =>
        have bound := (hexDigit_cases high).2
        have bound' := (hexDigit_cases low).2
        simp [u8FromStrRadix16, plus, high, low, show value * 16 + value' < 256 by omega]

theorem u8FromStrRadix16_wide {c : Char} (wide : c.utf8Size = 2) :
    ∃ e, u8FromStrRadix16 [c] = .error e := by
  have none_ : hexDigit c = none := by
    cases digit : hexDigit c with
    | none => rfl
    | some value =>
      have narrow := utf8Size_of_hexDigit (Option.isSome_of_eq_some digit)
      omega
  exact ⟨"invalid digit found in string", by simp [u8FromStrRadix16, none_]⟩

/-! ## The whole text -/

section
variable {good : Nat → Prop} {a b c : Char} {text front rest : List Char}

private theorem keyText_nil : KeyText good [] ↔ good 0 := by
  constructor
  · rintro ⟨pairs, rest, split, -, whole⟩
    obtain ⟨none_, rfl⟩ := List.append_eq_nil_iff.mp split.symm
    cases pairs with
    | nil =>
      rcases whole with ⟨-, counted⟩ | ⟨c, rest, shape, -⟩ | ⟨a, b, rest, shape, -⟩
      · exact counted
      · cases shape
      · cases shape
    | cons p pairs => cases none_
  · exact fun counted => ⟨[], [], rfl, by simp, Or.inl ⟨rfl, counted⟩⟩

private theorem keyText_refused (refused : Refused text) : KeyText good text :=
  ⟨[], text, rfl, by simp, Or.inr refused⟩

private theorem keyText_pair (pair : HexPair a b) :
    KeyText good (a :: b :: text) ↔ KeyText (fun n => good (n + 1)) text := by
  constructor
  · rintro ⟨pairs, rest, split, hex, whole⟩
    cases pairs with
    | nil =>
      obtain rfl : a :: b :: text = rest := split
      rcases whole with ⟨none_, -⟩ | ⟨c, rest, shape, wide⟩ | ⟨a', b', rest, shape, -, -, other⟩
      · cases none_
      · cases shape
        have narrow := (utf8Size_of_hexPair pair).1
        omega
      · cases shape
        exact absurd pair other
    | cons p pairs =>
      obtain ⟨first, second, same⟩ : a = p.1 ∧ b = p.2 ∧
          text = pairs.flatMap (fun p => [p.1, p.2]) ++ rest := by simpa using split
      exact ⟨pairs, rest, same, fun q member => hex q (List.mem_cons_of_mem _ member), whole⟩
  · rintro ⟨pairs, rest, rfl, hex, whole⟩
    refine ⟨(a, b) :: pairs, rest, rfl, ?_, whole⟩
    rintro q (_ | ⟨_, member⟩)
    · exact pair
    · exact hex q member

/-- Two bytes that cannot be cut out. -/
private theorem not_keyText (apart : splitAtByte 2 (c :: text) = none) : ¬ KeyText good (c :: text) := by
  rintro ⟨pairs, rest, split, hex, whole⟩
  cases pairs with
  | nil =>
    obtain rfl : c :: text = rest := split
    rcases whole with ⟨none_, -⟩ | ⟨c', rest, shape, wide⟩ | ⟨a, b, rest, shape, first, second, -⟩
    · cases none_
    · cases shape
      simp [splitAtByte, wide] at apart
    · cases shape
      simp [splitAtByte, first, second] at apart
  | cons p pairs =>
    obtain ⟨first, second⟩ := utf8Size_of_hexPair (hex p List.mem_cons_self)
    rw [split] at apart
    simp [splitAtByte, first, second] at apart

/-- The two bytes at the start of a text, when they can be cut out. -/
private theorem splitAtByte_two {parts : List Char × List Char}
    (cut : splitAtByte 2 (c :: text) = some parts) :
    c.utf8Size = 2 ∧ parts = ([c], text) ∨
      ∃ d rest, text = d :: rest ∧ c.utf8Size = 1 ∧ d.utf8Size = 1 ∧ parts = ([c, d], rest) := by
  have positive := c.utf8Size_pos
  rw [splitAtByte] at cut
  split at cut
  · rename_i fits
    obtain wide | narrow : c.utf8Size = 2 ∨ c.utf8Size = 1 := by omega
    · simp only [wide, Nat.sub_self, splitAtByte, Option.map_some, Option.some.injEq] at cut
      exact Or.inl ⟨wide, cut.symm⟩
    · rw [narrow] at cut
      cases text with
      | nil => cases cut
      | cons d tail =>
        have positive' := d.utf8Size_pos
        rw [splitAtByte] at cut
        split at cut
        · rename_i fits'
          have narrow' : d.utf8Size = 1 := by omega
          simp only [narrow', Nat.sub_self, splitAtByte, Option.map_some,
            Option.some.injEq] at cut
          exact Or.inr ⟨d, tail, rfl, narrow, narrow', cut.symm⟩
        · cases cut
  · cases cut

theorem hexPairs_keyText (n : Nat) (even : byteLen rest = 2 * n) :
    (∃ result, hexPairs (front ++ rest) (byteLen front) n = some result ∧
      ∀ key, result = .ok key → good key.length) ↔ KeyText good rest := by
  induction n generalizing front rest good with
  | zero =>
    have none_ : rest = [] := by
      cases rest with
      | nil => rfl
      | cons c rest =>
        have positive := c.utf8Size_pos
        rw [byteLen_cons] at even
        omega
    subst none_
    simp [hexPairs, keyText_nil]
  | succ n ih =>
    obtain ⟨c, text, rfl⟩ : ∃ c text, rest = c :: text := by
      cases rest with
      | nil => simp at even
      | cons c text => exact ⟨c, text, rfl⟩
    rw [hexPairs, sliceBytes_append]
    cases cut : splitAtByte 2 (c :: text) with
    | none => simp [not_keyText cut]
    | some parts =>
      rcases splitAtByte_two cut with ⟨wide, rfl⟩ | ⟨d, tail, rfl, first, second, rfl⟩
      · obtain ⟨e, bad⟩ := u8FromStrRadix16_wide wide
        simp [bad, keyText_refused (Or.inl ⟨c, text, rfl, wide⟩)]
      · have behind : byteLen front + 2 = byteLen (front ++ [c, d]) := by
          rw [byteLen_append, byteLen_cons, byteLen_cons, first, second]
          rfl
        have left : byteLen tail = 2 * n := by
          rw [byteLen_cons, byteLen_cons, first, second] at even
          omega
        by_cases pair : HexPair c d
        · obtain ⟨byte, number⟩ := (u8FromStrRadix16_pair c d).mpr pair
          have later : (∃ result, hexPairs (front ++ c :: d :: tail) (byteLen front + 2) n = some result ∧
              ∀ key, result = .ok key → good (key.length + 1)) ↔ KeyText (fun n => good (n + 1)) tail := by
            have whole : front ++ c :: d :: tail = front ++ [c, d] ++ tail := by simp
            rw [behind, whole]
            exact @ih (fun n => good (n + 1)) (front ++ [c, d]) tail left
          rw [keyText_pair pair, ← later]
          simp only [Option.map_some, Option.bind_eq_bind, Option.bind_some, number]
          cases hexPairs (front ++ c :: d :: tail) (byteLen front + 2) n with
          | none => simp
          | some result => cases result <;> simp [Except.map]
        · obtain ⟨e, bad⟩ : ∃ e, u8FromStrRadix16 [c, d] = .error e := by
            cases read : u8FromStrRadix16 [c, d] with
            | error e => exact ⟨e, rfl⟩
            | ok byte => exact absurd ((u8FromStrRadix16_pair c d).mp ⟨byte, read⟩) pair
          simp [bad, keyText_refused (Or.inr ⟨c, d, tail, rfl, first, second, pair⟩)]

end

/-! ## Delivery -/

section
variable {Certificate Secret Public : Type} {crates : CryptoCrates Certificate Secret Public}

/-- `load_network_key` does not panic, and with a key it accepts
`encrypt_network_key` does not either: what it encrypts is the prefix, these
bytes, all of them, and their checksum. -/
def KeyDelivered (crates : CryptoCrates Certificate Secret Public) (server : Secret) (cert : Bytes)
    (device : Public) (randomPrefix : Vector UInt8 14) (loaded : Option (Except Error Bytes)) : Prop :=
  ∃ result, loaded = some result ∧ ∀ key, result = .ok key →
    ∃ out cipherKey, crates.encryptNetworkKey server cert key randomPrefix = some (.ok out) ∧
      crates.aesKey server device = some cipherKey ∧
      CryptoCrates.ecb (crates.encryptBlock cipherKey)
        (randomPrefix.toList ++ key ++ crcBytes (randomPrefix.toList ++ key)) = some out

/-- The text of the key file has a key that can be delivered, or none. -/
def GoodKeyText (text : List Char) : Prop :=
  byteLen text % 2 ≠ 0 ∨ KeyText (fun pairs => pairs = 16) text

private theorem aesBlock_length {bytes : Bytes} {block : AesBlock} (made : aesBlock bytes = some block) :
    bytes.length = 16 := by
  unfold aesBlock at made
  split at made
  · assumption
  · cases made

/-- A key is encrypted as it is exactly if it has 16 bytes. -/
theorem encrypt_exact_iff {server : Secret} {cert key : Bytes} {device : Public}
    {randomPrefix : Vector UInt8 14} (parsed : crates.parseP256Pubkey cert = .ok device) :
    (∃ out cipherKey, crates.encryptNetworkKey server cert key randomPrefix = some (.ok out) ∧
      crates.aesKey server device = some cipherKey ∧
      CryptoCrates.ecb (crates.encryptBlock cipherKey)
        (randomPrefix.toList ++ key ++ crcBytes (randomPrefix.toList ++ key)) = some out) ↔
      key.length = 16 := by
  constructor
  · rintro ⟨out, cipherKey, -, -, exactly⟩
    obtain ⟨b0, first, exactly⟩ := Option.bind_eq_some_iff.mp exactly
    obtain ⟨b1, second, -⟩ := Option.bind_eq_some_iff.mp exactly
    have length := aesBlock_length second
    simp [crcBytes] at length
    omega
  · intro sixteen
    obtain ⟨cipherKey, derived⟩ := aesKey_isSome crates server device
    have data : (randomPrefix.toList ++ key).length = 30 := by simp [sixteen]
    obtain ⟨b0, b1, split⟩ := aesBlock_halves (randomPrefix.toList ++ key ++
      crcBytes (randomPrefix.toList ++ key)) (by rw [List.length_append, data]; rfl)
    refine ⟨_, cipherKey, ?_, derived, split ▸ ecb_append _ b0 b1⟩
    simp only [CryptoCrates.encryptNetworkKey, parsed, sixteen, Nat.le_refl, if_true,
      Option.bind_eq_bind, Option.bind_some, derived]
    rw [List.take_of_length_le (Nat.le_of_eq sixteen), split, ecb_append]
    rfl

private theorem decodeHex_good (hexStr : String) :
    (∃ result, decodeHex hexStr = some result ∧ ∀ key, result = .ok key → key.length = 16) ↔
      GoodKeyText hexStr.toList := by
  unfold decodeHex GoodKeyText
  by_cases odd : byteLen hexStr.toList % 2 ≠ 0
  · rw [if_pos odd]
    exact iff_of_true ⟨_, rfl, by rintro key ⟨⟩⟩ (Or.inl odd)
  · rw [if_neg odd]
    have even : byteLen hexStr.toList = 2 * (byteLen hexStr.toList / 2) := by omega
    have pairs := @hexPairs_keyText (fun pairs => pairs = 16) [] hexStr.toList _ even
    rw [byteLen_nil, List.nil_append] at pairs
    rw [pairs, or_iff_right odd]

/-- **A network key that is accepted can be delivered** exactly if the text
breaks off at a pair that is refused or has 16 pairs. -/
theorem keyDelivered_iff {server : Secret} {cert : Bytes} {device : Public}
    {randomPrefix : Vector UInt8 14} (parsed : crates.parseP256Pubkey cert = .ok device)
    (fromStr : String → Except String Json) (path : String) (file : Except String String) :
    KeyDelivered crates server cert device randomPrefix (loadNetworkKey fromStr path file) ↔
      ∀ content json hexStr, file = .ok content → fromStr content = .ok json →
        (json.get "network_key").asStr = some hexStr → GoodKeyText hexStr.toList := by
  unfold KeyDelivered
  simp only [encrypt_exact_iff parsed]
  have rejected (e : Error) : ∃ result, some (.error e : Except Error Bytes) = some result ∧
      ∀ key, result = .ok key → key.length = 16 := ⟨_, rfl, by rintro key ⟨⟩⟩
  cases file with
  | error e => exact iff_of_true (rejected _) (by rintro _ _ _ ⟨⟩)
  | ok content =>
    cases parse : fromStr content with
    | error e =>
      have loaded : loadNetworkKey fromStr path (.ok content) = some (.error (.json e)) := by
        simp [loadNetworkKey, parse]
      rw [loaded]
      refine iff_of_true (rejected _) ?_
      rintro _ json hexStr ⟨⟩ json'
      cases parse.symm.trans json'
    | ok json =>
      cases held : (json.get "network_key").asStr with
      | none =>
        have loaded : ∃ e, loadNetworkKey fromStr path (.ok content) = some (.error e) := by
          simp [loadNetworkKey, parse, held]
        obtain ⟨e, loaded⟩ := loaded
        rw [loaded]
        refine iff_of_true (rejected _) ?_
        rintro _ json' hexStr ⟨⟩ same text
        cases parse.symm.trans same
        cases held.symm.trans text
      | some hexStr =>
        have only : (∀ content' json' hexStr', Except.ok (ε := String) content = .ok content' →
            fromStr content' = .ok json' → (json'.get "network_key").asStr = some hexStr' →
            GoodKeyText hexStr'.toList) ↔ GoodKeyText hexStr.toList := by
          constructor
          · intro all
            exact all content json hexStr rfl parse held
          · rintro good _ json' hexStr' ⟨⟩ same text
            cases parse.symm.trans same
            cases held.symm.trans text
            exact good
        rw [only, ← decodeHex_good]
        simp only [loadNetworkKey, parse, held]
        cases decodeHex hexStr with
        | none => simp
        | some result => cases result <;> simp [Except.mapError]

/-! ## Key files -/

/-- A key file with this text as its network key. -/
def loadText (hexStr : String) : Option (Except Error Bytes) :=
  loadNetworkKey (fun _ => .ok (.obj [("network_key", .str hexStr)])) "lb.key"
    (.ok ("\x7b\"network_key\": \"" ++ hexStr ++ "\"\x7d"))

private theorem number_parsed : numberCrates.parseP256Pubkey [15] = .ok 15 := rfl

/-- Sixteen pairs are delivered. -/
theorem keyDelivered_sixteen : KeyDelivered numberCrates 7 [15] 15 (Vector.replicate 14 9)
    (loadText "42424242424242424242424242424242") := by
  refine (keyDelivered_iff number_parsed _ _ _).mpr ?_
  rintro _ _ _ ⟨⟩ ⟨⟩ text
  obtain rfl := Option.some.inj text
  exact Or.inr ⟨List.replicate 16 ('4', '2'), [], by decide +kernel, by decide +kernel, Or.inl ⟨rfl, rfl⟩⟩

/-- What is accepted at start-up and cannot be delivered has another length. -/
private theorem not_keyDelivered {hexStr : String} {key : Bytes} (loaded : loadText hexStr = some (.ok key))
    (other : key.length ≠ 16) :
    ¬ KeyDelivered numberCrates 7 [15] 15 (Vector.replicate 14 9) (loadText hexStr) := by
  rintro ⟨result, held, delivered⟩
  cases loaded.symm.trans held
  exact other ((encrypt_exact_iff number_parsed).mp (delivered key rfl))

/-- A text that is cut inside a character, one that is too short, and one that
is too long. -/
theorem keyDelivered_fails :
    ¬ KeyDelivered numberCrates 7 [15] 15 (Vector.replicate 14 9) (loadText "€a") ∧
    ¬ KeyDelivered numberCrates 7 [15] 15 (Vector.replicate 14 9) (loadText "42") ∧
    ¬ KeyDelivered numberCrates 7 [15] 15 (Vector.replicate 14 9)
      (loadText "4242424242424242424242424242424242") := by
  have long : loadText "4242424242424242424242424242424242" = some (.ok (List.replicate 17 0x42)) := by
    decide +kernel
  have short : loadText "42" = some (.ok [0x42]) := by decide +kernel
  refine ⟨?_, not_keyDelivered short (by decide), not_keyDelivered long (by decide)⟩
  rintro ⟨result, held, -⟩
  have panics : loadText "€a" = none := by decide +kernel
  cases panics.symm.trans held

end
end Lwm2mServer
