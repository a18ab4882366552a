import Lwm2mServer.Library.Crc
import Lwm2mServer.WritePhase

/-! The network key on its way to a device. The server encrypts it under the
secret it shares with the device, between a random prefix and a checksum that
brings the register of the whole message back to zero; the key lies across two
AES blocks. What the cryptographic crates compute is a parameter. -/
namespace Lwm2mServer
open Library Polynomial

/-- `aes::Block`. -/
abbrev AesBlock := Vector UInt8 16

/-- `x509_cert`, `p256` and `aes`: certificates, keys and the block cipher. -/
structure CryptoCrates (Certificate Secret Public : Type) where
  certificateFromDer : Bytes → Except String Certificate
  /-- `to_der` of the certificate's subject public key info. -/
  spkiToDer : Certificate → Except String Bytes
  fromPublicKeyDer : Bytes → Except String Public
  publicKey : Secret → Public
  /-- `raw_secret_bytes`, the x-coordinate. -/
  diffieHellman : Secret → Public → Vector UInt8 32
  encryptBlock : AesBlock → AesBlock → AesBlock
  decryptBlock : AesBlock → AesBlock → AesBlock

/-- `<[u8; 16]>::try_from(bytes).unwrap()`. -/
def aesBlock (bytes : Bytes) : Option AesBlock :=
  if sixteen : bytes.length = 16 then some ⟨bytes.toArray, sixteen⟩ else none

/-- One round of the inner loop of `crc16_xmodem`. -/
def crcRound (crc : UInt16) : UInt16 :=
  if crc &&& 0x8000 ≠ 0 then (crc <<< 1) ^^^ 0x1021 else crc <<< 1

/-- `crc16_xmodem`. -/
def crc16Xmodem (data : Bytes) : UInt16 :=
  data.foldl (fun crc byte => crcRound^[8] (crc ^^^ (byte.toUInt16 <<< (8 : UInt16)))) 0

/-- The checksum behind the data, the upper byte first. -/
def crcBytes (data : Bytes) : Bytes := [(crc16Xmodem data >>> 8).toUInt8, (crc16Xmodem data).toUInt8]

namespace CryptoCrates
variable {Certificate Secret Public : Type} (crates : CryptoCrates Certificate Secret Public)

/-- `parse_p256_pubkey`. -/
def parseP256Pubkey (bytes : Bytes) : Except Error Public := do
  let cert ← (crates.certificateFromDer bytes).mapError fun e => .bootstrap s!"X.509 decode: {e}"
  let spkiDer ← (crates.spkiToDer cert).mapError fun e => .bootstrap s!"SPKI encode: {e}"
  (crates.fromPublicKeyDer spkiDer).mapError fun e => .bootstrap s!"pubkey decode: {e}"

/-- The first 16 bytes of the shared secret. -/
def aesKey (secret : Secret) (peer : Public) : Option AesBlock :=
  aesBlock ((crates.diffieHellman secret peer).toList.take 16)

/-- AES-128-ECB of 32 bytes: each half on its own. -/
def ecb (block : AesBlock → AesBlock) (bytes : Bytes) : Option Bytes := do
  let b0 ← aesBlock (bytes.take 16)
  let b1 ← aesBlock (bytes.drop 16)
  return (block b0).toList ++ (block b1).toList

/-- `encrypt_network_key`, with the random prefix it draws; `none` is a panic,
as by the slice `network_key[..16]`. -/
def encryptNetworkKey (serverSecret : Secret) (devicePubkeyBytes networkKey : Bytes)
    (randomPrefix : Vector UInt8 14) : Option (Except Error Bytes) :=
  match crates.parseP256Pubkey devicePubkeyBytes with
  | .error e => some (.error e)
  | .ok devicePubkey => do
    let key ← if 16 ≤ networkKey.length then some (networkKey.take 16) else none
    let data := randomPrefix.toList ++ key
    let cipherKey ← crates.aesKey serverSecret devicePubkey
    let out ← ecb (crates.encryptBlock cipherKey) (data ++ crcBytes data)
    return .ok out

/-- What a device does with it: the secret of its own key and the public key
of the server. -/
def decryptNetworkKey (deviceSecret : Secret) (serverPubkey : Public) (ciphertext : Bytes) :
    Option Bytes := do
  let cipherKey ← crates.aesKey deviceSecret serverPubkey
  ecb (crates.decryptBlock cipherKey) ciphertext

end CryptoCrates

/-! ## The checksum -/

theorem crcRound_toBitVec (crc : UInt16) : (crcRound crc).toBitVec = Crc.shift 0x1021#16 crc.toBitVec := by
  have top : crc &&& 0x8000 ≠ 0 ↔ crc.toBitVec.msb = true := by
    have bit : crc.toBitVec &&& 0x8000#16 = if crc.toBitVec.getLsbD 15 then 0x8000#16 else 0#16 :=
      BitVec.and_twoPow crc.toBitVec 15
    rw [Ne, ← UInt16.toBitVec_inj, UInt16.toBitVec_and, BitVec.msb_eq_getLsbD_last]
    change ¬ crc.toBitVec &&& 0x8000#16 = 0#16 ↔ _
    rw [bit]
    cases crc.toBitVec.getLsbD 15 <;> decide
  unfold crcRound Crc.shift
  by_cases msb : crc.toBitVec.msb = true
  · rw [if_pos (top.mpr msb), if_pos msb]
    rfl
  · rw [if_neg (mt top.mp msb), if_neg msb]
    rfl

private theorem crcRounds_toBitVec (n : Nat) (crc : UInt16) :
    (crcRound^[n] crc).toBitVec = Crc.shifts 0x1021#16 n crc.toBitVec := by
  induction n generalizing crc with
  | zero => rfl
  | succ n ih => rw [Function.iterate_succ_apply, ih, crcRound_toBitVec, Crc.shifts]

/-- The loop of the source is the register of the library. -/
theorem crc16Xmodem_toBitVec (data : Bytes) :
    (crc16Xmodem data).toBitVec = Crc.crc 0x1021#16 (data.map UInt8.toBitVec) := by
  have from_ (crc : UInt16) : (data.foldl (fun crc byte =>
      crcRound^[8] (crc ^^^ (byte.toUInt16 <<< (8 : UInt16)))) crc).toBitVec =
      (data.map UInt8.toBitVec).foldl (Crc.feed 0x1021#16) crc.toBitVec := by
    induction data generalizing crc with
    | nil => rfl
    | cons byte rest ih =>
      rw [List.foldl_cons, ih, List.map_cons, List.foldl_cons, crcRounds_toBitVec]
      rfl
  exact from_ 0

/-- The generator, term by term. -/
theorem generator_xmodem : Crc.generator 0x1021#16 = X ^ 16 + X ^ 12 + X ^ 5 + 1 := by
  have terms : 0x1021#16 = BitVec.twoPow 16 12 ^^^ BitVec.twoPow 16 5 ^^^ BitVec.twoPow 16 0 := by decide
  rw [Crc.generator, terms, Crc.toPoly_xor, Crc.toPoly_xor, Crc.toPoly_twoPow (by decide),
    Crc.toPoly_twoPow (by decide), Crc.toPoly_twoPow (by decide), pow_zero]
  ring

/-- Data followed by its checksum leaves zero. -/
theorem crc16Xmodem_crcBytes (data : Bytes) : crc16Xmodem (data ++ crcBytes data) = 0 := by
  apply UInt16.toBitVec_inj.mp
  rw [crc16Xmodem_toBitVec, List.map_append]
  have stored : (crcBytes data).map UInt8.toBitVec =
      [((crc16Xmodem data).toBitVec >>> 8).setWidth 8, (crc16Xmodem data).toBitVec.setWidth 8] := rfl
  rw [stored, crc16Xmodem_toBitVec]
  exact Crc.crc_append_self _ _

/-! ## The device -/

section
variable {Certificate Secret Public : Type} {crates : CryptoCrates Certificate Secret Public}

theorem aesBlock_take (bytes : Bytes) (enough : 16 ≤ bytes.length) :
    ∃ block, aesBlock (bytes.take 16) = some block ∧ block.toList = bytes.take 16 := by
  have sixteen : (bytes.take 16).length = 16 := by rw [List.length_take, Nat.min_eq_left enough]
  exact ⟨_, dif_pos sixteen, rfl⟩

theorem aesBlock_toList (block : AesBlock) : aesBlock block.toList = some block := by
  rw [aesBlock, dif_pos block.length_toList]
  rfl

/-- Each half goes through the cipher on its own. -/
theorem ecb_append (block : AesBlock → AesBlock) (b0 b1 : AesBlock) :
    CryptoCrates.ecb block (b0.toList ++ b1.toList) = some ((block b0).toList ++ (block b1).toList) := by
  rw [CryptoCrates.ecb, List.take_left' b0.length_toList, List.drop_left' b0.length_toList,
    aesBlock_toList, aesBlock_toList]
  rfl

theorem aesBlock_halves (bytes : Bytes) (length : bytes.length = 32) :
    ∃ b0 b1 : AesBlock, bytes = b0.toList ++ b1.toList := by
  obtain ⟨b0, -, first⟩ := aesBlock_take bytes (by omega)
  obtain ⟨b1, -, second⟩ := aesBlock_take (bytes.drop 16) (by rw [List.length_drop]; omega)
  have rest : (bytes.drop 16).take 16 = bytes.drop 16 :=
    List.take_of_length_le (by rw [List.length_drop]; omega)
  exact ⟨b0, b1, by rw [first, second, rest, List.take_append_drop]⟩

theorem aesKey_isSome (crates : CryptoCrates Certificate Secret Public) (secret : Secret)
    (peer : Public) : ∃ key, crates.aesKey secret peer = some key := by
  obtain ⟨key, made, -⟩ := aesBlock_take (crates.diffieHellman secret peer).toList
    (by rw [Vector.length_toList]; decide)
  exact ⟨key, made⟩

/-- **The device recovers the network key.** -/
theorem device_recovers_key
    (inverse : ∀ key block, crates.decryptBlock key (crates.encryptBlock key block) = block)
    (symmetric : ∀ a b, crates.diffieHellman a (crates.publicKey b) =
      crates.diffieHellman b (crates.publicKey a))
    (server device : Secret) {cert : Bytes}
    (certified : crates.parseP256Pubkey cert = .ok (crates.publicKey device))
    (networkKey : Vector UInt8 16) (randomPrefix : Vector UInt8 14) :
    (∃ out plaintext,
      crates.encryptNetworkKey server cert networkKey.toList randomPrefix = some (.ok out) ∧
      out.length = 32 ∧
      crates.decryptNetworkKey device (crates.publicKey server) out = some plaintext ∧
      plaintext.length = 32 ∧ (plaintext.drop 14).take 16 = networkKey.toList ∧
      plaintext.drop 30 = crcBytes (plaintext.take 30) ∧ crc16Xmodem plaintext = 0) ∧
    ∀ data, Crc.toPoly (crc16Xmodem data).toBitVec =
      (Crc.message (data.map UInt8.toBitVec) * X ^ 16) %ₘ (X ^ 16 + X ^ 12 + X ^ 5 + 1) := by
  constructor
  · obtain ⟨key, derived⟩ := aesKey_isSome crates server (crates.publicKey device)
    have same : crates.aesKey device (crates.publicKey server) = some key := by
      rw [CryptoCrates.aesKey, ← symmetric server device]
      exact derived
    have data : (randomPrefix.toList ++ networkKey.toList).length = 30 := by simp
    obtain ⟨b0, b1, split⟩ := aesBlock_halves (randomPrefix.toList ++ networkKey.toList ++
      crcBytes (randomPrefix.toList ++ networkKey.toList)) (by rw [List.length_append, data]; rfl)
    refine ⟨(crates.encryptBlock key b0).toList ++ (crates.encryptBlock key b1).toList,
      b0.toList ++ b1.toList, ?_, by simp, ?_, by simp, ?_, ?_, ?_⟩
    · simp only [CryptoCrates.encryptNetworkKey, certified, Vector.length_toList, Nat.le_refl, if_true,
        Option.bind_eq_bind, Option.bind_some, derived]
      rw [List.take_of_length_le (by simp), split, ecb_append]
      rfl
    · simp only [CryptoCrates.decryptNetworkKey, same, Option.bind_eq_bind, Option.bind_some, ecb_append,
        inverse]
    · rw [← split]
      simp
    · rw [← split, List.drop_left' data, List.take_left' data]
    · rw [← split]
      exact crc16Xmodem_crcBytes _
  · intro data
    rw [crc16Xmodem_toBitVec, Crc.toPoly_crc (by decide), generator_xmodem]

end

/-- Keys are numbers, shared by multiplying, and the cipher is exclusive or. -/
def numberCrates : CryptoCrates Bytes UInt8 UInt8 where
  certificateFromDer bytes := .ok bytes
  spkiToDer cert := .ok cert
  fromPublicKeyDer der := match der with
    | [key] => .ok key
    | _ => .error "ASN.1 error"
  publicKey secret := secret * 3
  diffieHellman secret peer := Vector.replicate 32 (secret * peer)
  encryptBlock key block := Vector.zipWith (· ^^^ ·) key block
  decryptBlock key block := Vector.zipWith (· ^^^ ·) key block

theorem device_recovers_key_number : ∃ out plaintext,
    numberCrates.encryptNetworkKey 7 [15] (List.replicate 16 0x42) (Vector.replicate 14 9) = some (.ok out) ∧
    numberCrates.decryptNetworkKey 5 21 out = some plaintext ∧
    (plaintext.drop 14).take 16 = List.replicate 16 0x42 := by
  have inverse (key block : AesBlock) :
      numberCrates.decryptBlock key (numberCrates.encryptBlock key block) = block := by
    ext i below
    simp only [numberCrates, Vector.getElem_zipWith, ← UInt8.xor_assoc, UInt8.xor_self, UInt8.zero_xor]
  have symmetric (a b : UInt8) : numberCrates.diffieHellman a (numberCrates.publicKey b) =
      numberCrates.diffieHellman b (numberCrates.publicKey a) := by
    simp only [numberCrates]
    rw [← UInt8.mul_assoc, UInt8.mul_comm a b, UInt8.mul_assoc]
  have certified : numberCrates.parseP256Pubkey [15] = .ok (numberCrates.publicKey 5) := rfl
  obtain ⟨⟨out, plaintext, encrypted, -, decrypted, -, key, -, -⟩, -⟩ :=
    device_recovers_key inverse symmetric 7 5 certified (Vector.replicate 16 0x42) (Vector.replicate 14 9)
  exact ⟨out, plaintext, encrypted, decrypted, key⟩

end Lwm2mServer
