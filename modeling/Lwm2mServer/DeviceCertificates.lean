import Lwm2mServer.Certificates
import Lwm2mServer.DerEncoding
import Lwm2mServer.Library.Cbor
import Lwm2mServer.ReportedValues

/-! `validate_device_certificate`: what a certificate must be for a device to
get the network key. The check reads the extensions with an iterator that skips
what it does not know; what it accepts is stated here in DER as it is written,
and carried to every encryption of the network key. -/
namespace Lwm2mServer.DeviceCertificates
open Library DerItems DerItemIter

/-- `x509_cert::Certificate`, as far as the checks look into it. -/
structure Certificate (Name Spki : Type) where
  issuer : Name
  subject : Name
  subjectPublicKeyInfo : Spki
  /-- The content bytes of each identifier, and the value. -/
  extensions : Option (List (Bytes × Bytes))
  /-- `signature.as_bytes()`: nothing, unless it is whole bytes. -/
  signature : Option Bytes

/-- What `x509_cert`, `p256` and `base64` do. -/
structure Crates (Name Spki Key Signature : Type) where
  /-- `STANDARD.decode`. -/
  base64Decode : String → Except String Bytes
  /-- `Certificate::from_der`. -/
  certificateFromDer : Bytes → Except String (Certificate Name Spki)
  spkiToDer : Spki → Except String Bytes
  /-- `VerifyingKey::from_public_key_der`. -/
  keyFromDer : Bytes → Except String Key
  /-- `Signature::from_der`. -/
  signatureFromDer : Bytes → Except String Signature
  verify : Key → Bytes → Signature → Bool

/-- The smartsystem CA (original DK hardware). -/
def ca1Pem : String :=
"-----BEGIN CERTIFICATE-----
MIIBwTCCAWegAwIBAgIUFp+DgiuciH+lGlQoMbfM4J1wf3QwCgYIKoZIzj0EAwIw
FjEUMBIGA1UEAwwLc21hcnRzeXN0ZW0wIBcNMjIwNjI5MTU1MTQ5WhgPMjEyMjA2
MDUxNTUxNDlaMBYxFDASBgNVBAMMC3NtYXJ0c3lzdGVtMFkwEwYHKoZIzj0CAQYI
KoZIzj0DAQcDQgAE4/iFiywk2Kaqh09YmYZjjz6mc4j4uStZA8V5DStJcwpOJZUf
CWmya8NeyFyCHjr2hbaLLRiKRN6SutQ/QsyDpKOBkDCBjTAdBgNVHQ4EFgQUkA+i
PMjLNA39Ini6wvHOhmNWZ7EwUQYDVR0jBEowSIAUkA+iPMjLNA39Ini6wvHOhmNW
Z7GhGqQYMBYxFDASBgNVBAMMC3NtYXJ0c3lzdGVtghQWn4OCK5yIf6UaVCgxt8zg
nXB/dDAMBgNVHRMEBTADAQH/MAsGA1UdDwQEAwIBBjAKBggqhkjOPQQDAgNIADBF
AiEA4Y704Qdw18/YGf+ofKDanftPaYferEKgp9C8g4sFaRkCID7t4VCTkaBHmF8b
mE52/8+DaLdJt7Yru4s1zRqxZPtT
-----END CERTIFICATE-----
"

/-- GARDENA Device CA G1 (DMD hardware). -/
def ca2Pem : String :=
"-----BEGIN CERTIFICATE-----
MIIBxzCCAW2gAwIBAgIUa4oBLgK3fA9G/ln5PUab4GkQ+REwCgYIKoZIzj0EAwQw
NDEQMA4GA1UECgwHR0FSREVOQTEgMB4GA1UEAwwXc21hcnQgc3lzdGVtIFJvb3Qg
Q0EgRzEwIBcNMjQwOTA1MTIwNTEyWhgPMjEyNDA4MTIxMjA1MTJaMCkxEDAOBgNV
BAoMB0dBUkRFTkExFTATBgNVBAMMDERldmljZSBDQSBHMTBZMBMGByqGSM49AgEG
CCqGSM49AwEHA0IABAClYNC4m4/PuV45hCDlke5ft2xeU/l7rla3A/aTX0ryi0xy
em2Q/WE73tVD86lX0XShXI7KFE+DGcO0ngYcOp6jZjBkMB0GA1UdDgQWBBTayoee
Qgkek/huZNKNzEhxSn5w+jAfBgNVHSMEGDAWgBTXpazeuEDoTGLylR/9B0kPW1El
JjASBgNVHRMBAf8ECDAGAQH/AgEAMA4GA1UdDwEB/wQEAwIBhjAKBggqhkjOPQQD
BANIADBFAiEAxTNrpX08iilKXmi8w+u3rr6DCgVMCSRnPABNADySFFQCID9Z76d/
J6iIDd+grM5DAdVOc/E8xC8OvbaraUtKcIet
-----END CERTIFICATE-----
"

/-- `line.strip_suffix('\r')`, or the line itself. -/
def stripReturn (line : List Char) : List Char :=
  if line.getLast? = some '\r' then line.dropLast else line

/-- `str::lines`: a line feed ends a line, with the carriage return before it;
what is behind the last one is a line unless it is empty. -/
def lines (text : List Char) : List (List Char) :=
  let parts := text.splitOn '\n'
  parts.dropLast.map stripReturn ++ (parts.getLast?.filter (· ≠ [])).toList

/-- The lines that do not start with `-----`, put together. -/
def joinBody (text : List Char) : List Char :=
  ((lines text).filter fun line => !"-----".toList.isPrefixOf line).flatten

/-- What `pem_to_der` decodes. -/
def pemBody (pem : String) : String := .ofList (joinBody pem.toList)

def keyUsage : Bytes := [0x55, 0x1d, 0x0f]
def extKeyUsage : Bytes := [0x55, 0x1d, 0x25]
def subjectAltName : Bytes := [0x55, 0x1d, 0x11]

/-- `sgtin:`. -/
def sgtinPrefix : Bytes := [0x73, 0x67, 0x74, 0x69, 0x6e, 0x3a]

/-- A name of the form `sgtin:…`; the tag is that of a URI. -/
def isSgtin (item : UInt8 × Bytes) : Bool := item.1 = 0x86 && sgtinPrefix.isPrefixOf item.2

/-- `str::eq_ignore_ascii_case`. -/
def eqIgnoreAsciiCase (a b : String) : Bool :=
  a.toList.map Char.toLower = b.toList.map Char.toLower

/-- `Iterator::find`, with a bound on the calls of `next`. -/
def find (pred : UInt8 × Bytes → Bool) : Nat → DerItemIter → Option (Option (UInt8 × Bytes))
  | 0, _ => some none
  | fuel + 1, iter => do
    match ← iter.next with
    | (none, _) => return none
    | (some item, iter) => if pred item then return some item else find pred fuel iter

/-- `check?` and what comes after it. -/
def thenCheck (check : Option (Except String Unit)) (rest : Unit → Option (Except String Unit)) :
    Option (Except String Unit) := do
  match ← check with
  | .error e => return .error e
  | .ok () => rest ()

section
variable {Name Spki : Type}

/-- `find_extension`. -/
def findExtension (cert : Certificate Name Spki) (oidContent : Bytes) : Option Bytes := do
  let exts ← cert.extensions
  exts.findSome? fun e => if e.1 = oidContent then some e.2 else none

/-- `cert_check_sgtin`; as in the other checks the outer `none` is a panic. -/
def certCheckSgtin (cert : Certificate Name Spki) (endpoint : String) :
    Option (Except String Unit) :=
  match findExtension cert subjectAltName with
  | none => some (.error "missing SubjectAltName extension")
  | some extVal => do
    match ← (DerItemIter.new extVal).next with
    | (some (0x30, seq), _) =>
      match ← find isSgtin (seq.length + 1) (.new seq) with
      | none => return .error "no sgtin: URI in SubjectAltName"
      | some (_, uriBytes) =>
        let certSgtin := (Library.Cbor.utf8 (uriBytes.drop sgtinPrefix.length)).getD ""
        return if eqIgnoreAsciiCase certSgtin endpoint then .ok ()
          else .error ("certificate SGTIN '" ++ certSgtin ++ "' does not match endpoint '" ++
            endpoint ++ "'")
    | _ => return .error "SAN: expected SEQUENCE"

end

namespace Crates
variable {Name Spki Key Signature : Type} (crates : Crates Name Spki Key Signature)

/-- `pem_to_der`. -/
def pemToDer (pem : String) : Except String Bytes :=
  (crates.base64Decode (pemBody pem)).mapError ("PEM base64: " ++ ·)

/-- The key of a CA, as `cert_verify_signature` reads it. -/
def verifyingKey (ca : Certificate Name Spki) : Except String Key := do
  let caSpkiDer ← (crates.spkiToDer ca.subjectPublicKeyInfo).mapError ("CA SPKI encode: " ++ ·)
  (crates.keyFromDer caSpkiDer).mapError ("CA public key parse: " ++ ·)

/-- `cert_verify_signature`. -/
def certVerifySignature (cert ca : Certificate Name Spki) (certDer : Bytes) :
    Option (Except String Unit) :=
  match crates.verifyingKey ca with
  | .error e => some (.error e)
  | .ok vk => do
    match ← tbsBytesFromCertDer certDer with
    | none => return .error "cannot extract TBS from cert DER"
    | some tbsDer =>
      match cert.signature with
      | none => return .error "cert signature not octet-aligned"
      | some sigBytes =>
        match crates.signatureFromDer sigBytes with
        | .error e => return .error ("signature parse: " ++ e)
        | .ok sig =>
          return if crates.verify vk tbsDer sig then .ok ()
            else .error "signature verification failed"

variable [DecidableEq Name]

/-- A CA certificate, if it can be read and its subject is the issuer. -/
def caOf (cert : Certificate Name Spki) (pem : String) : Option (Certificate Name Spki) := do
  let der ← (crates.pemToDer pem).toOption
  let caCert ← (crates.certificateFromDer der).toOption
  if caCert.subject = cert.issuer then some caCert else none

/-- `validate_device_certificate`. -/
def validateDeviceCertificate (certDer : Bytes) (endpoint : String) :
    Option (Except String Unit) :=
  match crates.certificateFromDer certDer with
  | .error e => some (.error ("device cert decode: " ++ e))
  | .ok cert =>
    match [ca1Pem, ca2Pem].findSome? (crates.caOf cert) with
    | none => some (.error "certificate from unknown issuer")
    | some ca =>
      thenCheck (certCheckKeyUsage (findExtension cert keyUsage)) fun _ =>
      thenCheck (certCheckEku (findExtension cert extKeyUsage)) fun _ =>
      thenCheck (crates.certVerifySignature cert ca certDer) fun _ =>
      certCheckSgtin cert endpoint

end Crates

/-! ## What the iterator takes was written there -/

theorem encode_length_pos (item : DerItem) : 0 < item.encode.length := by
  simp [DerItem.encode, DerItem.header]

/-- The first byte of a long form counts the bytes of the length. -/
private theorem long_first {first : UInt8} (long : ¬ first < 0x80) :
    UInt8.ofNat (0x80 + (first &&& 0x7f).toNat) = first := by
  have low : (first &&& 0x7f).toNat = first.toNat % 2 ^ 7 := by
    rw [UInt8.toNat_and]
    exact Nat.and_two_pow_sub_one_eq_mod first.toNat 7
  have high : 128 ≤ first.toNat := by
    rw [UInt8.lt_iff_toNat_lt] at long
    exact Nat.not_lt.mp long
  have byte := first.toNat_lt
  apply UInt8.toNat_inj.mp
  rw [low, UInt8.toNat_ofNat']
  omega

/-- A header that can be read, with as many bytes behind it as it states, is an
item. -/
theorem written {data : Bytes} {pos start length : Nat}
    (header : headerAt data pos = some (start, length)) (fits : start + length ≤ data.length) :
    ∃ (item : DerItem) (rest : Bytes), data.drop pos = item.encode ++ rest ∧
      pos + item.encode.length = start + length := by
  have size := List.length_drop (i := pos) (l := data)
  unfold headerAt at header
  split at header
  · rename_i tag first rest parts
    rw [parts, List.length_cons, List.length_cons] at size
    dsimp only at header
    split at header
    · rename_i short
      cases header
      have whole : (rest.take first.toNat).length = first.toNat := by
        rw [List.length_take]
        omega
      refine ⟨⟨tag, rest.take first.toNat, .short, ?_⟩, rest.drop first.toNat, ?_, ?_⟩
      · rw [whole]
        exact UInt8.lt_iff_toNat_lt.mp short
      · rw [parts]
        simp [DerItem.encode, DerItem.header, LengthForm.encode, whole]
      · simp only [DerItem.encode, DerItem.header, LengthForm.encode, List.length_append,
          List.length_cons, List.length_nil, whole]
        omega
    · rename_i long
      split at header
      · cases header
      · rename_i counted
        cases header
        generalize count : (first &&& 0x7f).toNat = n at *
        have digits : (rest.take n).length = n := by
          rw [List.length_take]
          omega
        have whole : ((rest.drop n).take (bigEndian (rest.take n))).length =
            bigEndian (rest.take n) := by
          rw [List.length_take, List.length_drop]
          omega
        refine ⟨⟨tag, (rest.drop n).take (bigEndian (rest.take n)), .long (rest.take n), ?_⟩,
          (rest.drop n).drop (bigEndian (rest.take n)), ?_, ?_⟩
        · refine ⟨?_, ?_, whole.symm⟩ <;> omega
        · have byte := long_first long
          rw [count] at byte
          rw [parts]
          simp [DerItem.encode, DerItem.header, LengthForm.encode, digits, byte]
        · simp only [DerItem.encode, DerItem.header, LengthForm.encode, List.length_append,
            List.length_cons, whole, digits]
          omega
  · cases header

/-- **A call takes an item exactly if one is written there.** -/
theorem next_iff {front rest : Bytes} {pair : UInt8 × Bytes} {after : DerItemIter}
    (small : (front ++ rest).length < 2 ^ 31) :
    next ⟨front ++ rest, front.length⟩ = some (some pair, after) ↔
      ∃ (item : DerItem) (behind : Bytes), rest = item.encode ++ behind ∧ item.pair = pair ∧
        after = ⟨front ++ rest, (front ++ item.encode).length⟩ := by
  have taken (item : DerItem) (behind : Bytes) (begins : rest = item.encode ++ behind) :
      next ⟨front ++ rest, front.length⟩ =
        some (some item.pair, ⟨front ++ rest, (front ++ item.encode).length⟩) := by
    subst begins
    rw [← List.append_assoc] at small ⊢
    exact next_encode item front behind small
  constructor
  · intro called
    cases header : headerAt (front ++ rest) front.length with
    | none =>
      obtain ⟨_, other, -⟩ := next_of_noHeader small (by simp) header
      cases called.symm.trans other
    | some found =>
      obtain ⟨start, length⟩ := found
      by_cases short : start + length < 2 ^ 32
      · obtain ⟨_, -, -, -, other⟩ := next_of_fitting small header short
        by_cases fits : start + length ≤ (front ++ rest).length
        · obtain ⟨item, behind, begins, -⟩ := written header fits
          rw [List.drop_left] at begins
          cases called.symm.trans (taken item behind begins)
          exact ⟨item, behind, begins, rfl, rfl⟩
        · rw [if_neg fits] at other
          cases called.symm.trans other
      · have overlong : Overlong (front ++ rest) front.length :=
          ⟨start, length, header, Nat.le_of_not_lt short⟩
        cases called.symm.trans (next_of_overlong small overlong)
  · rintro ⟨item, behind, begins, rfl, rfl⟩
    exact taken item behind begins

/-- The data begins with whole items, and the last of them is the first that
passes. -/
def Finds (pred : UInt8 × Bytes → Bool) (data : Bytes) (found : UInt8 × Bytes) : Prop :=
  ∃ (skipped : List DerItem) (item : DerItem) (rest : Bytes),
    data = skipped.flatMap (·.encode) ++ item.encode ++ rest ∧ item.pair = found ∧
      pred found = true ∧ ∀ other ∈ skipped, pred other.pair = false

theorem find_iff {pred : UInt8 × Bytes → Bool} {found : UInt8 × Bytes} (fuel : Nat)
    (front rest : Bytes) (small : (front ++ rest).length < 2 ^ 31) (enough : rest.length < fuel) :
    find pred fuel ⟨front ++ rest, front.length⟩ = some (some found) ↔ Finds pred rest found := by
  induction fuel generalizing front rest with
  | zero => cases enough
  | succ fuel ih =>
    -- behind a whole item that does not pass, the search goes on
    have behind (item : DerItem) (after : Bytes) (begins : rest = item.encode ++ after)
        (fails : pred item.pair = false) :
        find pred (fuel + 1) ⟨front ++ rest, front.length⟩ = some (some found) ↔
          Finds pred after found := by
      have called := (next_iff small).mpr ⟨item, after, begins, rfl, rfl⟩
      have whole : front ++ rest = (front ++ item.encode) ++ after := by
        rw [begins, List.append_assoc]
      have shorter := encode_length_pos item
      have size := congrArg List.length begins
      rw [List.length_append] at size
      rw [← ih (front ++ item.encode) after (whole ▸ small) (by omega), find, called]
      simp only [Option.bind_eq_bind, Option.bind_some, fails, Bool.false_eq_true, if_false, whole]
    constructor
    · intro ran
      cases called : next ⟨front ++ rest, front.length⟩ with
      | none => simp [find, called] at ran
      | some result =>
        obtain ⟨item, after⟩ := result
        cases item with
        | none => simp [find, called] at ran
        | some pair =>
          obtain ⟨item, after, begins, rfl, rfl⟩ := (next_iff small).mp called
          cases passes : pred item.pair with
          | true =>
            simp only [find, called, Option.bind_eq_bind, Option.bind_some, passes, if_true,
              Option.pure_def, Option.some.injEq] at ran
            subst ran
            exact ⟨[], item, after, by simpa using begins, rfl, passes, by simp⟩
          | false =>
            obtain ⟨skipped, last, tail, parts, same, passed, none⟩ :=
              (behind item after begins passes).mp ran
            refine ⟨item :: skipped, last, tail, ?_, same, passed, ?_⟩
            · simp only [begins, parts, List.flatMap_cons, List.append_assoc]
            · exact List.forall_mem_cons.mpr ⟨passes, none⟩
    · rintro ⟨skipped, last, tail, parts, rfl, passed, none⟩
      cases skipped with
      | nil =>
        have called := (next_iff small).mpr ⟨last, tail, by simpa using parts, rfl, rfl⟩
        simp [find, called, passed]
      | cons item skipped =>
        obtain ⟨fails, none⟩ := List.forall_mem_cons.mp none
        refine (behind item (skipped.flatMap (·.encode) ++ last.encode ++ tail) ?_ fails).mpr
          ⟨skipped, last, tail, rfl, rfl, passed, none⟩
        simp only [parts, List.flatMap_cons, List.append_assoc]

theorem any_eq_find (pred : UInt8 × Bytes → Bool) (fuel : Nat) (iter : DerItemIter) :
    any pred fuel iter = (find pred fuel iter).map Option.isSome := by
  induction fuel generalizing iter with
  | zero => rfl
  | succ fuel ih =>
    rw [any, find]
    cases iter.next with
    | none => rfl
    | some result =>
      obtain ⟨item, after⟩ := result
      cases item with
      | none => rfl
      | some pair =>
        simp only [Option.bind_eq_bind, Option.bind_some]
        split
        · rfl
        · exact ih after

/-- The data begins with an item of the tag and the value. -/
def Begins (data : Bytes) (tag : UInt8) (value : Bytes) : Prop :=
  ∃ (item : DerItem) (rest : Bytes), data = item.encode ++ rest ∧ item.pair = (tag, value)

theorem next_new_iff {data : Bytes} (small : data.length < 2 ^ 31) (tag : UInt8) (value : Bytes) :
    (∃ after, next (.new data) = some (some (tag, value), after)) ↔ Begins data tag value := by
  have called (after : DerItemIter) := @next_iff [] data (tag, value) after small
  constructor
  · rintro ⟨after, taken⟩
    obtain ⟨item, rest, begins, same, -⟩ := (called after).mp taken
    exact ⟨item, rest, begins, same⟩
  · rintro ⟨item, rest, begins, same⟩
    exact ⟨_, (called _).mpr ⟨item, rest, begins, same, rfl⟩⟩

/-- An item that passes stands behind whole items. -/
def Holds (pred : UInt8 × Bytes → Bool) (data : Bytes) : Prop :=
  ∃ (front : List DerItem) (item : DerItem) (rest : Bytes),
    data = front.flatMap (·.encode) ++ item.encode ++ rest ∧ pred item.pair = true

/-- Where one passes, there is a first one. -/
theorem holds_iff_finds {pred : UInt8 × Bytes → Bool} {data : Bytes} :
    Holds pred data ↔ ∃ found, Finds pred data found := by
  constructor
  · rintro ⟨front, item, rest, parts, passes⟩
    induction front generalizing data with
    | nil => exact ⟨item.pair, [], item, rest, parts, rfl, passes, by simp⟩
    | cons first front ih =>
      cases passes' : pred first.pair with
      | true =>
        refine ⟨first.pair, [], first, front.flatMap (·.encode) ++ item.encode ++ rest, ?_, rfl,
          passes', by simp⟩
        simp only [parts, List.flatMap_cons, List.flatMap_nil, List.append_assoc, List.nil_append]
      | false =>
        obtain ⟨found, skipped, last, tail, inner, same, passed, none⟩ := ih rfl
        refine ⟨found, first :: skipped, last, tail, ?_, same, passed,
          List.forall_mem_cons.mpr ⟨passes', none⟩⟩
        simp only [List.append_assoc] at inner
        simp only [parts, List.flatMap_cons, List.append_assoc, inner]
  · rintro ⟨found, skipped, item, rest, parts, rfl, passes, -⟩
    exact ⟨skipped, item, rest, parts, passes⟩

/-! ## The checks -/

section
variable {Name Spki : Type} {cert : Certificate Name Spki} {endpoint : String}

theorem thenCheck_ok {check : Option (Except String Unit)}
    {rest : Unit → Option (Except String Unit)} :
    thenCheck check rest = some (.ok ()) ↔ check = some (.ok ()) ∧ rest () = some (.ok ()) := by
  cases check with
  | none => simp [thenCheck]
  | some result => cases result <;> simp [thenCheck]

/-- The key usage is a bit string with the first bit set. -/
def MaySign (cert : Certificate Name Spki) : Prop :=
  ∃ value unused byte rest, findExtension cert keyUsage = some value ∧
    Begins value 0x03 (unused :: byte :: rest) ∧ byte &&& 0x80 ≠ 0

/-- The extended key usage is a sequence in which `clientAuth` stands. -/
def ForClients (cert : Certificate Name Spki) : Prop :=
  ∃ value seq, findExtension cert extKeyUsage = some value ∧ Begins value 0x30 seq ∧
    Holds isClientAuth seq

/-- The alternative names are a sequence whose first `sgtin:` URI is the
endpoint, up to the case of ASCII letters; one that is no text counts as empty. -/
def NamedFor (cert : Certificate Name Spki) (endpoint : String) : Prop :=
  ∃ value seq sgtin, findExtension cert subjectAltName = some value ∧ Begins value 0x30 seq ∧
    Finds isSgtin seq (0x86, sgtinPrefix ++ sgtin) ∧
    eqIgnoreAsciiCase ((Library.Cbor.utf8 sgtin).getD "") endpoint = true

/-- The values of the extensions can be addressed. -/
def Addressable (cert : Certificate Name Spki) : Prop :=
  ∀ oidContent value, findExtension cert oidContent = some value → value.length < 2 ^ 31

theorem begins_length {data value : Bytes} {tag : UInt8} (begins : Begins data tag value) :
    value.length ≤ data.length := by
  obtain ⟨item, rest, rfl, same⟩ := begins
  cases same
  simp only [List.length_append, DerItem.encode]
  omega

theorem certCheckKeyUsage_ok (addressable : Addressable cert) :
    certCheckKeyUsage (findExtension cert keyUsage) = some (.ok ()) ↔ MaySign cert := by
  cases held : findExtension cert keyUsage with
  | none => simp [certCheckKeyUsage, MaySign, held]
  | some value =>
    have small := addressable _ _ held
    constructor
    · intro ran
      simp only [certCheckKeyUsage] at ran
      cases called : next (.new value) with
      | none => simp [called] at ran
      | some result =>
        simp only [called, Option.bind_eq_bind, Option.bind_some] at ran
        split at ran
        · rename_i bits after
          have begins := (next_new_iff small _ _).mp ⟨_, called⟩
          cases bits with
          | nil => simp at ran
          | cons unused bits =>
            cases bits with
            | nil => simp at ran
            | cons byte rest =>
              refine ⟨value, unused, byte, rest, held, begins, fun clear => ?_⟩
              simp [clear] at ran
        · simp at ran
    · rintro ⟨_, unused, byte, rest, same, begins, bit⟩
      cases held.symm.trans same
      obtain ⟨after, called⟩ := (next_new_iff small _ _).mpr begins
      simp [certCheckKeyUsage, called, bit]

theorem certCheckEku_ok (addressable : Addressable cert) :
    certCheckEku (findExtension cert extKeyUsage) = some (.ok ()) ↔ ForClients cert := by
  cases held : findExtension cert extKeyUsage with
  | none => simp [certCheckEku, ForClients, held]
  | some value =>
    have small := addressable _ _ held
    have search (seq : Bytes) (begins : Begins value 0x30 seq) :
        any isClientAuth (seq.length + 1) (.new seq) = some true ↔ Holds isClientAuth seq := by
      have short := Nat.lt_of_le_of_lt (begins_length begins) small
      have found (pair : UInt8 × Bytes) : find isClientAuth (seq.length + 1) (.new seq) =
          some (some pair) ↔ Finds isClientAuth seq pair :=
        find_iff (seq.length + 1) [] seq short (Nat.lt_succ_self _)
      rw [any_eq_find, holds_iff_finds, Option.map_eq_some_iff]
      constructor
      · rintro ⟨result, ran, some_⟩
        obtain ⟨pair, rfl⟩ := Option.isSome_iff_exists.mp some_
        exact ⟨pair, (found pair).mp ran⟩
      · rintro ⟨pair, finds⟩
        exact ⟨some pair, (found pair).mpr finds, rfl⟩
    constructor
    · intro ran
      simp only [certCheckEku] at ran
      cases called : next (.new value) with
      | none => simp [called] at ran
      | some result =>
        simp only [called, Option.bind_eq_bind, Option.bind_some] at ran
        split at ran
        · rename_i seq after
          have begins := (next_new_iff small _ _).mp ⟨_, called⟩
          refine ⟨value, seq, held, begins, (search seq begins).mp ?_⟩
          cases ended : any isClientAuth (seq.length + 1) (.new seq) with
          | none => simp [ended] at ran
          | some result => cases result <;> simp [ended] at ran ⊢
        · simp at ran
    · rintro ⟨_, seq, same, begins, holds⟩
      cases held.symm.trans same
      obtain ⟨after, called⟩ := (next_new_iff small _ _).mpr begins
      simp [certCheckEku, called, (search seq begins).mpr holds]

theorem certCheckSgtin_ok (addressable : Addressable cert) :
    certCheckSgtin cert endpoint = some (.ok ()) ↔ NamedFor cert endpoint := by
  cases held : findExtension cert subjectAltName with
  | none => simp [certCheckSgtin, NamedFor, held]
  | some value =>
    have small := addressable _ _ held
    have search (seq : Bytes) (begins : Begins value 0x30 seq) (found : UInt8 × Bytes) :
        find isSgtin (seq.length + 1) (.new seq) = some (some found) ↔ Finds isSgtin seq found :=
      find_iff (seq.length + 1) [] seq (Nat.lt_of_le_of_lt (begins_length begins) small)
        (Nat.lt_succ_self _)
    constructor
    · intro ran
      simp only [certCheckSgtin, held] at ran
      cases called : next (.new value) with
      | none => simp [called] at ran
      | some result =>
        simp only [called, Option.bind_eq_bind, Option.bind_some] at ran
        split at ran
        · rename_i seq after
          have begins := (next_new_iff small _ _).mp ⟨_, called⟩
          cases ended : find isSgtin (seq.length + 1) (.new seq) with
          | none => simp [ended] at ran
          | some found =>
            cases found with
            | none => simp [ended] at ran
            | some found =>
              obtain ⟨tag, uriBytes⟩ := found
              have finds := (search seq begins _).mp ended
              have passes : isSgtin (tag, uriBytes) = true := by
                obtain ⟨-, -, -, -, -, passes, -⟩ := finds
                exact passes
              simp only [isSgtin, Bool.and_eq_true, decide_eq_true_eq, List.isPrefixOf_iff_prefix]
                at passes
              obtain ⟨rfl, sgtin, rfl⟩ := passes
              refine ⟨value, seq, sgtin, held, begins, finds, ?_⟩
              simpa [ended] using ran
        · simp at ran
    · rintro ⟨_, seq, sgtin, same, begins, finds, equal⟩
      cases held.symm.trans same
      obtain ⟨after, called⟩ := (next_new_iff small _ _).mpr begins
      simp [certCheckSgtin, held, called, (search seq begins _).mpr finds, equal]

end

/-- The bytes to be signed are cut out exactly if a sequence stands there that
begins with an item, and they are that item. -/
theorem tbsBytes_iff {certDer tbs : Bytes} (small : certDer.length < 2 ^ 31) :
    tbsBytesFromCertDer certDer = some (some tbs) ↔
      ∃ (content : Bytes) (first : DerItem) (rest : Bytes), Begins certDer 0x30 content ∧
        content = first.encode ++ rest ∧ tbs = first.encode := by
  have cut (first : DerItem) (rest : Bytes) :
      slice (first.encode ++ rest) 0 first.encode.length = some first.encode := by
    rw [slice, if_pos ⟨Nat.zero_le _, by simp⟩, List.take_left]
    rfl
  constructor
  · intro ran
    simp only [tbsBytesFromCertDer] at ran
    cases called : next (.new certDer) with
    | none => simp [called] at ran
    | some result =>
      simp only [called, Option.bind_eq_bind, Option.bind_some] at ran
      split at ran
      · rename_i content after
        have begins := (next_new_iff small _ _).mp ⟨_, called⟩
        have short := Nat.lt_of_le_of_lt (begins_length begins) small
        cases inner : next (.new content) with
        | none => simp [inner] at ran
        | some result =>
          obtain ⟨item, after⟩ := result
          cases item with
          | none => simp [inner] at ran
          | some pair =>
            obtain ⟨first, rest, parts, -, rfl⟩ := (@next_iff [] content pair after short).mp inner
            refine ⟨content, first, rest, begins, parts, ?_⟩
            simp only [inner, Option.bind_some, List.nil_append] at ran
            rw [parts, cut] at ran
            cases ran
            rfl
      · simp at ran
  · rintro ⟨content, first, rest, begins, rfl, rfl⟩
    have short := Nat.lt_of_le_of_lt (begins_length begins) small
    obtain ⟨after, called⟩ := (next_new_iff small _ _).mpr begins
    have inner : next (.new (first.encode ++ rest)) =
        some (some first.pair, ⟨first.encode ++ rest, first.encode.length⟩) :=
      (@next_iff [] (first.encode ++ rest) first.pair _ short).mpr ⟨first, rest, rfl, rfl, rfl⟩
    simp [tbsBytesFromCertDer, called, inner, cut]

namespace Crates
variable {Name Spki Key Signature : Type} (crates : Crates Name Spki Key Signature)

/-- A PEM text holds a certificate. -/
def Holds (pem : String) (ca : Certificate Name Spki) : Prop :=
  ∃ der, crates.base64Decode (pemBody pem) = .ok der ∧ crates.certificateFromDer der = .ok ca

/-- The issuer is one of the two CAs; of two with its name, the first. -/
def Issuer (cert ca : Certificate Name Spki) : Prop :=
  ca.subject = cert.issuer ∧
    (crates.Holds ca1Pem ca ∨ crates.Holds ca2Pem ca ∧
      ∀ other, crates.Holds ca1Pem other → other.subject ≠ cert.issuer)

/-- The first item of the certificate is signed with a key. -/
def Signed (key : Key) (cert : Certificate Name Spki) (certDer : Bytes) : Prop :=
  ∃ (content : Bytes) (tbs : DerItem) (rest sigBytes : Bytes) (sig : Signature),
    Begins certDer 0x30 content ∧ content = tbs.encode ++ rest ∧
      cert.signature = some sigBytes ∧ crates.signatureFromDer sigBytes = .ok sig ∧
      crates.verify key tbs.encode sig = true

/-- A certificate one of the two CAs gave a device under its endpoint name. -/
def Genuine (certDer : Bytes) (endpoint : String) : Prop :=
  ∃ cert ca key, crates.certificateFromDer certDer = .ok cert ∧ crates.Issuer cert ca ∧
    crates.verifyingKey ca = .ok key ∧ MaySign cert ∧ ForClients cert ∧
    crates.Signed key cert certDer ∧ NamedFor cert endpoint

/-- The values of the extensions are cut out of the certificate. -/
def Cuts : Prop :=
  ∀ certDer cert oidContent value, crates.certificateFromDer certDer = .ok cert →
    findExtension cert oidContent = some value → value.length ≤ certDer.length

variable {crates}

theorem certVerifySignature_ok {cert ca : Certificate Name Spki} {certDer : Bytes}
    (small : certDer.length < 2 ^ 31) :
    crates.certVerifySignature cert ca certDer = some (.ok ()) ↔
      ∃ key, crates.verifyingKey ca = .ok key ∧ crates.Signed key cert certDer := by
  cases parsed : crates.verifyingKey ca with
  | error e => simp [certVerifySignature, parsed]
  | ok key =>
    constructor
    · intro ran
      simp only [certVerifySignature, parsed] at ran
      cases cut : tbsBytesFromCertDer certDer with
      | none => simp [cut] at ran
      | some tbs =>
        simp only [cut, Option.bind_eq_bind, Option.bind_some] at ran
        cases tbs with
        | none => simp at ran
        | some tbs =>
          obtain ⟨content, first, rest, begins, parts, rfl⟩ := (tbsBytes_iff small).mp cut
          cases bits : cert.signature with
          | none => simp [bits] at ran
          | some sigBytes =>
            cases read : crates.signatureFromDer sigBytes with
            | error e => simp [bits, read] at ran
            | ok sig =>
              refine ⟨key, rfl, content, first, rest, sigBytes, sig, begins, parts, bits, read, ?_⟩
              simpa [bits, read] using ran
    · rintro ⟨_, same, content, tbs, rest, sigBytes, sig, begins, parts, bits, read, verified⟩
      cases same
      have cut := (tbsBytes_iff small).mpr ⟨content, tbs, rest, begins, parts, rfl⟩
      simp [certVerifySignature, parsed, cut, bits, read, verified]

theorem addressable {certDer : Bytes} {cert : Certificate Name Spki} (cuts : crates.Cuts)
    (small : certDer.length < 2 ^ 31) (read : crates.certificateFromDer certDer = .ok cert) :
    Addressable cert :=
  fun oidContent value held => Nat.lt_of_le_of_lt (cuts certDer cert oidContent value read held) small

variable [DecidableEq Name]

theorem caOf_eq_some {cert ca : Certificate Name Spki} {pem : String} :
    crates.caOf cert pem = some ca ↔ crates.Holds pem ca ∧ ca.subject = cert.issuer := by
  simp only [caOf, pemToDer, Holds]
  cases decoded : crates.base64Decode (pemBody pem) with
  | error e => simp [Except.mapError, Except.toOption]
  | ok der =>
    cases read : crates.certificateFromDer der with
    | error e => simp [Except.mapError, Except.toOption, read]
    | ok found =>
      simp only [Except.mapError, Except.toOption, read, Option.bind_eq_bind, Option.bind_some,
        Except.ok.injEq, exists_eq_left']
      constructor
      · intro ran
        split at ran
        · cases ran
          exact ⟨rfl, ‹_›⟩
        · cases ran
      · rintro ⟨rfl, same⟩
        rw [if_pos same]

theorem findCa_eq_some {cert ca : Certificate Name Spki} :
    [ca1Pem, ca2Pem].findSome? (crates.caOf cert) = some ca ↔ crates.Issuer cert ca := by
  have second : [ca2Pem].findSome? (crates.caOf cert) = crates.caOf cert ca2Pem := by
    simp only [List.findSome?_cons, List.findSome?_nil]
    cases crates.caOf cert ca2Pem <;> rfl
  rw [List.findSome?_cons, second, Issuer]
  cases first : crates.caOf cert ca1Pem with
  | none =>
    have missing (other : Certificate Name Spki) (holds : crates.Holds ca1Pem other) :
        other.subject ≠ cert.issuer := by
      intro same
      cases first.symm.trans (caOf_eq_some.mpr ⟨holds, same⟩)
    rw [caOf_eq_some]
    constructor
    · rintro ⟨holds, same⟩
      exact ⟨same, .inr ⟨holds, missing⟩⟩
    · rintro ⟨same, holds | ⟨holds, -⟩⟩
      · exact absurd same (missing ca holds)
      · exact ⟨holds, same⟩
  | some found =>
    obtain ⟨holds, same⟩ := caOf_eq_some.mp first
    constructor
    · rintro ⟨⟩
      exact ⟨same, .inl holds⟩
    · rintro ⟨named, held | ⟨-, missing⟩⟩
      · exact first.symm.trans (caOf_eq_some.mpr ⟨held, named⟩)
      · exact absurd same (missing found holds)

/-- The checks that are made one after another. -/
theorem validate_of_cert {certDer : Bytes} {endpoint : String} {cert ca : Certificate Name Spki}
    (read : crates.certificateFromDer certDer = .ok cert) (issuer : crates.Issuer cert ca) :
    crates.validateDeviceCertificate certDer endpoint = some (.ok ()) ↔
      certCheckKeyUsage (findExtension cert keyUsage) = some (.ok ()) ∧
      certCheckEku (findExtension cert extKeyUsage) = some (.ok ()) ∧
      crates.certVerifySignature cert ca certDer = some (.ok ()) ∧
      certCheckSgtin cert endpoint = some (.ok ()) := by
  simp only [validateDeviceCertificate, read, findCa_eq_some.mpr issuer, thenCheck_ok]

/-- What the check accepts. -/
theorem validate_ok {certDer : Bytes} {endpoint : String} (cuts : crates.Cuts)
    (small : certDer.length < 2 ^ 31) :
    crates.validateDeviceCertificate certDer endpoint = some (.ok ()) ↔
      crates.Genuine certDer endpoint := by
  constructor
  · intro accepted
    cases read : crates.certificateFromDer certDer with
    | error e => simp [validateDeviceCertificate, read] at accepted
    | ok cert =>
      cases found : [ca1Pem, ca2Pem].findSome? (crates.caOf cert) with
      | none => simp [validateDeviceCertificate, read, found] at accepted
      | some ca =>
        have issuer := findCa_eq_some.mp found
        obtain ⟨usage, eku, signature, sgtin⟩ := (validate_of_cert read issuer).mp accepted
        obtain ⟨key, parsed, signed⟩ := (certVerifySignature_ok small).mp signature
        have held := addressable cuts small read
        exact ⟨cert, ca, key, read, issuer, parsed, (certCheckKeyUsage_ok held).mp usage,
          (certCheckEku_ok held).mp eku, signed, (certCheckSgtin_ok held).mp sgtin⟩
  · rintro ⟨cert, ca, key, read, issuer, parsed, usage, eku, signed, sgtin⟩
    have held := addressable cuts small read
    refine (validate_of_cert read issuer).mpr ⟨?_, ?_, ?_, ?_⟩
    · exact (certCheckKeyUsage_ok held).mpr usage
    · exact (certCheckEku_ok held).mpr eku
    · exact (certVerifySignature_ok small).mpr ⟨key, parsed, signed⟩
    · exact (certCheckSgtin_ok held).mpr sgtin

end Crates

/-! ## One name, and only genuine certificates -/

theorem begins_unique {data first second : Bytes} {tag : UInt8} (small : data.length < 2 ^ 31)
    (one : Begins data tag first) (other : Begins data tag second) : first = second := by
  obtain ⟨_, called⟩ := (next_new_iff small tag first).mpr one
  obtain ⟨_, called'⟩ := (next_new_iff small tag second).mpr other
  cases called.symm.trans called'
  rfl

theorem finds_unique {pred : UInt8 × Bytes → Bool} {data : Bytes} {first second : UInt8 × Bytes}
    (small : data.length < 2 ^ 31) (one : Finds pred data first) (other : Finds pred data second) :
    first = second := by
  have ran := (find_iff (data.length + 1) [] data small (Nat.lt_succ_self _)).mpr one
  have ran' := (find_iff (data.length + 1) [] data small (Nat.lt_succ_self _)).mpr other
  exact Option.some.inj (Option.some.inj (ran.symm.trans ran'))

theorem eqIgnoreAsciiCase_trans {a b c : String} (first : eqIgnoreAsciiCase a b = true)
    (second : eqIgnoreAsciiCase a c = true) : eqIgnoreAsciiCase b c = true := by
  simp only [eqIgnoreAsciiCase, decide_eq_true_eq] at *
  exact first.symm.trans second

/-- A certificate has one name, up to the case of ASCII letters. -/
theorem namedFor_unique {Name Spki : Type} {cert : Certificate Name Spki} {first second : String}
    (addressable : Addressable cert) (one : NamedFor cert first) (other : NamedFor cert second) :
    eqIgnoreAsciiCase first second = true := by
  obtain ⟨value, seq, sgtin, held, begins, finds, equal⟩ := one
  obtain ⟨value', seq', sgtin', held', begins', finds', equal'⟩ := other
  cases held.symm.trans held'
  have small := addressable _ _ held
  cases begins_unique small begins begins'
  have short := Nat.lt_of_le_of_lt (begins_length begins) small
  have same := (Prod.mk.inj (finds_unique short finds finds')).2
  rw [List.append_cancel_left_eq] at same
  subst same
  exact eqIgnoreAsciiCase_trans equal equal'

section
variable {Name Spki Key Signature : Type} {crates : Crates Name Spki Key Signature}

theorem Crates.Genuine.unique {certDer : Bytes} {first second : String} (cuts : crates.Cuts)
    (small : certDer.length < 2 ^ 31) (one : crates.Genuine certDer first)
    (other : crates.Genuine certDer second) : eqIgnoreAsciiCase first second = true := by
  obtain ⟨cert, -, -, read, -, -, -, -, -, named⟩ := one
  obtain ⟨cert', -, -, read', -, -, -, -, -, named'⟩ := other
  cases read.symm.trans read'
  exact namedFor_unique (Crates.addressable cuts small read) named named'

variable [DecidableEq Name]

/-- **What the check accepts**, in DER as it is written: certificates that one
of the two CAs signed, for clients, under the endpoint's name; and none under
two names. -/
theorem accepted_exactly (cuts : crates.Cuts) (certDer : Bytes) (small : certDer.length < 2 ^ 31) :
    (∀ endpoint, crates.validateDeviceCertificate certDer endpoint = some (.ok ()) ↔
      crates.Genuine certDer endpoint) ∧
    ∀ first second, crates.validateDeviceCertificate certDer first = some (.ok ()) →
      crates.validateDeviceCertificate certDer second = some (.ok ()) →
      eqIgnoreAsciiCase first second = true := by
  constructor
  · intro endpoint
    exact Crates.validate_ok cuts small
  · intro first second one other
    apply Crates.Genuine.unique cuts small
    · exact (Crates.validate_ok cuts small).mp one
    · exact (Crates.validate_ok cuts small).mp other

/-- The server makes the check that is modelled here. -/
def Checks (crates : Crates Name Spki Key Signature) (env : Env) : Prop :=
  ∀ cert endpoint, env.validateDeviceCertificate cert endpoint = .ok () ↔
    crates.validateDeviceCertificate cert endpoint = some (.ok ())

/-- The network key was encrypted for a device, to a certificate. -/
def EncryptedTo (log : List Event) (endpoint : String) (cert : Bytes) : Prop :=
  ∃ i, .encrypted i endpoint cert ∈ log

/-- What is checked, or has been accepted, came in an answer to GET /0/0. -/
structure Fetched (c : Core) : Prop where
  waiting : ∀ endpoint payload, c.recv = .ackValidate endpoint payload →
    .cached endpoint payload ∈ c.log
  accepted : ∀ endpoint payload, .verdict endpoint payload true ∈ c.log →
    .cached endpoint payload ∈ c.log

theorem fetched_initial {c : Core} (initial : c.Initial) : Fetched c := by
  obtain ⟨seed, serverUri, included, rfl⟩ := initial
  constructor
  · intro endpoint payload position
    cases position
  · intro endpoint payload member
    cases List.mem_singleton.mp member

theorem fetched_step {env : Env} {c next : Core} {action : Action} (fetched : Fetched c)
    (moved : Transition env c action next) : Fetched next := by
  have grown {endpoint : String} {payload : Bytes}
      (member : .cached endpoint payload ∈ c.log) := moved.mem_log member
  rcases Certificates.cache_cases moved with ⟨-, recv, events, log, plain⟩ |
    ⟨packet, session, -, -, rfl⟩ | ⟨other, checked, position, -, rfl⟩ | ⟨other, checked, -, rfl⟩ |
    ⟨other, -, rfl⟩
  · constructor
    · intro endpoint payload position
      rcases recv with same | ⟨-, none⟩
      · exact grown (fetched.waiting endpoint payload (same ▸ position))
      · rw [position] at none
        cases none
    · intro endpoint payload member
      rw [log] at member
      rcases List.mem_append.mp member with added | old
      · cases plain _ added
      · exact grown (fetched.accepted endpoint payload old)
  · constructor
    · intro endpoint payload position
      cases position
      exact List.mem_cons_self
    · intro endpoint payload member
      rcases List.mem_cons.mp member with same | old
      · cases same
      · exact grown (fetched.accepted endpoint payload old)
  · constructor
    · intro endpoint payload position
      cases position
    · intro endpoint payload member
      rcases List.mem_cons.mp member with same | old
      · cases same
        exact grown (fetched.waiting other checked position)
      · exact grown (fetched.accepted endpoint payload old)
  · constructor
    · intro endpoint payload position
      cases position
    · intro endpoint payload member
      rcases List.mem_cons.mp member with same | old
      · cases same
      · exact grown (fetched.accepted endpoint payload old)
  · constructor
    · intro endpoint payload position
      cases position
    · exact fetched.accepted

/-- **The network key goes to genuine certificates only**, each under one name,
in every run in which no write phase reads the cache between `complete` and the
check. -/
theorem key_encrypted_to_genuine {env : Env} {s : Server} (checks : Checks crates env)
    (cuts : crates.Cuts)
    (reached : (serverMachine env).Reaches (fun s action => Certificates.ReadsChecked s.core action) s)
    (cert : Bytes) (small : cert.length < 2 ^ 31) :
    (∀ endpoint, EncryptedTo s.log endpoint cert → crates.Genuine cert endpoint ∧
      ∃ payload, env.devicePubkey payload = .ok cert ∧ .cached endpoint payload ∈ s.log) ∧
    ∀ first second, EncryptedTo s.log first cert → EncryptedTo s.log second cert →
      eqIgnoreAsciiCase first second = true := by
  have kept : Certificates.Vouched env s.core ∧ Fetched s.core := by
    refine core_invariant (fun c action => Certificates.ReadsChecked c action)
      (fun c => Certificates.Vouched env c ∧ Fetched c) reached ?_ ?_
    · exact fun c initial => ⟨Certificates.vouched_initial initial, fetched_initial initial⟩
    · intro c action next ⟨vouched, fetched⟩ checked moved
      exact ⟨Certificates.vouched_step vouched checked moved, fetched_step fetched moved⟩
  have genuine (endpoint : String) (encrypted : EncryptedTo s.log endpoint cert) :
      crates.Genuine cert endpoint ∧
        ∃ payload, env.devicePubkey payload = .ok cert ∧ .cached endpoint payload ∈ s.log := by
    obtain ⟨i, member⟩ := encrypted
    obtain ⟨earlier, vetted, older⟩ := kept.1.vetted.of_mem member
    obtain ⟨payload, parsed, valid, verdict⟩ := vetted i endpoint cert rfl
    refine ⟨(Crates.validate_ok cuts small).mp ((checks cert endpoint).mp valid), payload, parsed, ?_⟩
    exact kept.2.accepted endpoint payload (older _ verdict)
  refine ⟨genuine, fun first second one other => ?_⟩
  exact Crates.Genuine.unique cuts small (genuine first one).1 (genuine second other).1

end

/-! The certificate of the DMD device in the tests of `bootstrap.rs`. -/
namespace Dmd
set_option maxRecDepth 20000

@[irreducible] def cert : Bytes :=
  [0x30, 0x82, 0x01, 0xb6, 0x30, 0x82, 0x01, 0x5c, 0xa0, 0x03, 0x02, 0x01, 0x02, 0x02, 0x14, 0x7f,
    0xf9, 0xe1, 0xa8, 0xd4, 0xd3, 0xee, 0xbd, 0x1f, 0xdd, 0x2c, 0x18, 0xcb, 0x97, 0x45, 0x75, 0xbb,
    0x4e, 0x24, 0xa7, 0x30, 0x0a, 0x06, 0x08, 0x2a, 0x86, 0x48, 0xce, 0x3d, 0x04, 0x03, 0x02, 0x30,
    0x29, 0x31, 0x10, 0x30, 0x0e, 0x06, 0x03, 0x55, 0x04, 0x0a, 0x0c, 0x07, 0x47, 0x41, 0x52, 0x44,
    0x45, 0x4e, 0x41, 0x31, 0x15, 0x30, 0x13, 0x06, 0x03, 0x55, 0x04, 0x03, 0x0c, 0x0c, 0x44, 0x65,
    0x76, 0x69, 0x63, 0x65, 0x20, 0x43, 0x41, 0x20, 0x47, 0x31, 0x30, 0x20, 0x17, 0x0d, 0x32, 0x34,
    0x30, 0x39, 0x30, 0x35, 0x31, 0x33, 0x33, 0x34, 0x33, 0x36, 0x5a, 0x18, 0x0f, 0x32, 0x31, 0x32,
    0x34, 0x30, 0x38, 0x31, 0x32, 0x31, 0x32, 0x30, 0x35, 0x31, 0x32, 0x5a, 0x30, 0x2f, 0x31, 0x2d,
    0x30, 0x2b, 0x06, 0x03, 0x55, 0x04, 0x03, 0x0c, 0x24, 0x33, 0x35, 0x66, 0x31, 0x34, 0x36, 0x34,
    0x65, 0x2d, 0x37, 0x39, 0x38, 0x39, 0x2d, 0x34, 0x63, 0x62, 0x62, 0x2d, 0x39, 0x66, 0x37, 0x38,
    0x2d, 0x30, 0x32, 0x31, 0x30, 0x62, 0x61, 0x34, 0x39, 0x30, 0x33, 0x37, 0x37, 0x30, 0x59, 0x30,
    0x13, 0x06, 0x07, 0x2a, 0x86, 0x48, 0xce, 0x3d, 0x02, 0x01, 0x06, 0x08, 0x2a, 0x86, 0x48, 0xce,
    0x3d, 0x03, 0x01, 0x07, 0x03, 0x42, 0x00, 0x04, 0xf3, 0xa4, 0x01, 0xbb, 0x86, 0xcd, 0x48, 0x59,
    0x98, 0xdc, 0x5a, 0x23, 0x5c, 0x8a, 0x69, 0x63, 0x56, 0x26, 0x1a, 0xc3, 0x91, 0x25, 0x89, 0xca,
    0x60, 0xb8, 0x79, 0xdc, 0x11, 0x7d, 0x79, 0x5f, 0xb5, 0xd8, 0xaa, 0xbd, 0x54, 0xff, 0x3d, 0x8b,
    0xda, 0xea, 0xda, 0x51, 0x12, 0x73, 0x3c, 0xaf, 0xef, 0x19, 0xd6, 0xe8, 0xc8, 0xbd, 0x67, 0xbc,
    0x57, 0x37, 0x4d, 0xdd, 0x7a, 0xe2, 0x8c, 0xe4, 0xa3, 0x5a, 0x30, 0x58, 0x30, 0x09, 0x06, 0x03,
    0x55, 0x1d, 0x13, 0x04, 0x02, 0x30, 0x00, 0x30, 0x29, 0x06, 0x03, 0x55, 0x1d, 0x11, 0x04, 0x22,
    0x30, 0x20, 0x86, 0x1e, 0x73, 0x67, 0x74, 0x69, 0x6e, 0x3a, 0x33, 0x30, 0x33, 0x34, 0x46, 0x38,
    0x33, 0x31, 0x39, 0x43, 0x30, 0x30, 0x37, 0x35, 0x34, 0x30, 0x30, 0x30, 0x30, 0x31, 0x38, 0x36,
    0x41, 0x32, 0x30, 0x13, 0x06, 0x03, 0x55, 0x1d, 0x25, 0x04, 0x0c, 0x30, 0x0a, 0x06, 0x08, 0x2b,
    0x06, 0x01, 0x05, 0x05, 0x07, 0x03, 0x02, 0x30, 0x0b, 0x06, 0x03, 0x55, 0x1d, 0x0f, 0x04, 0x04,
    0x03, 0x02, 0x07, 0x80, 0x30, 0x0a, 0x06, 0x08, 0x2a, 0x86, 0x48, 0xce, 0x3d, 0x04, 0x03, 0x02,
    0x03, 0x48, 0x00, 0x30, 0x45, 0x02, 0x20, 0x6a, 0x00, 0x89, 0x89, 0xe7, 0x7e, 0x92, 0xdf, 0xe9,
    0x3f, 0xde, 0x5f, 0x17, 0x52, 0x0e, 0x95, 0x86, 0xee, 0x86, 0xe3, 0xb3, 0x45, 0x40, 0x83, 0xe7,
    0x49, 0xa8, 0x21, 0x04, 0x85, 0x18, 0x15, 0x02, 0x21, 0x00, 0xbb, 0x14, 0x28, 0xaa, 0x4d, 0x51,
    0xb7, 0x59, 0x71, 0x2a, 0xc9, 0xe4, 0xfe, 0x4d, 0x3b, 0x9e, 0x93, 0x9f, 0xe1, 0x88, 0x78, 0x09,
    0x9f, 0xfa, 0x3c, 0x5e, 0x2c, 0x01, 0x54, 0xbe, 0x79, 0x78]

/-- The bytes a PEM text holds. -/
@[irreducible] def der (pem : String) : Bytes := ReportedValues.base64Bytes (pemBody pem).toList

/-- The bytes from one position to another. -/
def cut (start stop : Nat) (data : Bytes) : Bytes := (data.take stop).drop start

/-- The fields of a certificate by their positions. -/
def fields (data : Bytes) (issuer subject spki signature : Nat × Nat)
    (extensions : List (Bytes × Nat × Nat)) : Certificate Bytes Bytes where
  issuer := cut issuer.1 issuer.2 data
  subject := cut subject.1 subject.2 data
  subjectPublicKeyInfo := cut spki.1 spki.2 data
  extensions := some (extensions.map fun e => (e.1, cut e.2.1 e.2.2 data))
  signature := some (cut signature.1 signature.2 data)

def device : Certificate Bytes Bytes :=
  fields cert (47, 90) (124, 173) (173, 264) (371, 442)
    [([0x55, 0x1d, 0x13], 277, 279), ([0x55, 0x1d, 0x11], 288, 322),
      ([0x55, 0x1d, 0x25], 331, 343), ([0x55, 0x1d, 0x0f], 352, 356)]

def ca1 : Certificate Bytes Bytes :=
  fields (der ca1Pem) (47, 71) (105, 129) (129, 220) (382, 453)
    [([0x55, 0x1d, 0x0e], 235, 257), ([0x55, 0x1d, 0x23], 266, 340),
      ([0x55, 0x1d, 0x13], 349, 354), ([0x55, 0x1d, 0x0f], 363, 367)]

def ca2 : Certificate Bytes Bytes :=
  fields (der ca2Pem) (47, 101) (135, 178) (178, 269) (388, 459)
    [([0x55, 0x1d, 0x0e], 282, 304), ([0x55, 0x1d, 0x23], 313, 337),
      ([0x55, 0x1d, 0x13], 349, 357), ([0x55, 0x1d, 0x0f], 369, 373)]

/-- `from_der` of the three certificates there are. -/
def certificateFromDer (data : Bytes) : Except String (Certificate Bytes Bytes) :=
  if data = cert then .ok device
  else if data = der ca1Pem then .ok ca1
  else if data = der ca2Pem then .ok ca2
  else .error "unexpected ASN.1 DER tag"

/-- The signature of the device certificate verifies under the second CA. -/
def crates : Crates Bytes Bytes Bytes Bytes where
  base64Decode text := .ok (ReportedValues.base64Bytes text.toList)
  certificateFromDer := certificateFromDer
  spkiToDer := .ok
  keyFromDer := .ok
  signatureFromDer := .ok
  verify key tbs sig :=
    key = ca2.subjectPublicKeyInfo && tbs = cut 4 356 cert && sig = cut 371 442 cert

theorem cut_length (start stop : Nat) (data : Bytes) : (cut start stop data).length ≤ data.length := by
  simp only [cut, List.length_drop, List.length_take]
  omega

theorem fields_cut {data oidContent value : Bytes} {issuer subject spki signature : Nat × Nat}
    {extensions : List (Bytes × Nat × Nat)}
    (held : findExtension (fields data issuer subject spki signature extensions) oidContent =
      some value) : value.length ≤ data.length := by
  simp only [findExtension, fields, Option.bind_eq_bind, Option.bind_some] at held
  obtain ⟨ext, member, taken⟩ := List.exists_of_findSome?_eq_some held
  obtain ⟨entry, -, rfl⟩ := List.mem_map.mp member
  split at taken
  · cases taken
    exact cut_length _ _ _
  · cases taken

theorem cuts : crates.Cuts := by
  intro certDer cert oidContent value read held
  simp only [crates, certificateFromDer] at read
  split at read
  · rename_i same
    cases read
    exact same ▸ fields_cut held
  · split at read
    · rename_i same
      cases read
      exact same ▸ fields_cut held
    · split at read
      · rename_i same
        cases read
        exact same ▸ fields_cut held
      · cases read

theorem der_of {pem : String} {text : List Char} (same : pem = String.ofList text) :
    der pem = ReportedValues.base64Bytes (joinBody text) := by
  subst same
  simp only [der, pemBody, String.toList_ofList]

theorem ca1_bytes : (der ca1Pem).take 4 = [0x30, 0x82, 0x01, 0xc1] ∧
    ca1.subject ≠ device.issuer := by
  rw [ca1, @der_of ca1Pem _ rfl]
  decide +kernel

theorem ca2_bytes : (der ca2Pem).take 4 = [0x30, 0x82, 0x01, 0xc7] ∧
    ca2.subject = device.issuer := by
  rw [ca2, @der_of ca2Pem _ rfl]
  decide +kernel

theorem holds_iff {pem : String} {other : Certificate Bytes Bytes} :
    crates.Holds pem other ↔ certificateFromDer (der pem) = .ok other := by
  have decoded : crates.base64Decode (pemBody pem) = .ok (der pem) := by
    simp only [crates, der]
  simp only [Crates.Holds, decoded, Except.ok.injEq, exists_eq_left']
  rfl

/-- The third and the fourth byte of a certificate tell it from the others. -/
theorem differ {data other : Bytes} {start start' : Bytes} (begins : data.take 4 = start)
    (begins' : other.take 4 = start') (different : start ≠ start') : data ≠ other := by
  rintro rfl
  exact different (begins.symm.trans begins')

theorem cert_bytes : cert.take 4 = [0x30, 0x82, 0x01, 0xb6] := by decide +kernel

theorem holds_ca1 {other : Certificate Bytes Bytes} (held : crates.Holds ca1Pem other) :
    other = ca1 := by
  have different : der ca1Pem ≠ cert := differ ca1_bytes.1 cert_bytes (by decide)
  rw [holds_iff, certificateFromDer, if_neg different, if_pos rfl] at held
  exact (Except.ok.inj held).symm

theorem holds_ca2 : crates.Holds ca2Pem ca2 := by
  have different : der ca2Pem ≠ cert := differ ca2_bytes.1 cert_bytes (by decide)
  have other : der ca2Pem ≠ der ca1Pem := differ ca2_bytes.1 ca1_bytes.1 (by decide)
  rw [holds_iff, certificateFromDer, if_neg different, if_neg other, if_pos rfl]

/-- An item with a short length. -/
def item (tag : UInt8) (value : Bytes) (short : value.length < 0x80) : DerItem :=
  ⟨tag, value, .short, short⟩

def uri : DerItem := item 0x86 (sgtinPrefix ++ [0x33, 0x30, 0x33, 0x34, 0x46, 0x38, 0x33, 0x31, 0x39,
  0x43, 0x30, 0x30, 0x37, 0x35, 0x34, 0x30, 0x30, 0x30, 0x30, 0x31, 0x38, 0x36, 0x41, 0x32]) (by decide)

/-- The part that is signed, 348 bytes behind a length of two bytes. -/
def tbs : DerItem := ⟨0x30, cut 8 356 cert, .long [0x01, 0x5c], by decide +kernel⟩

theorem maySign : MaySign device :=
  ⟨_, 0x07, 0x80, [], rfl, ⟨item 0x03 [0x07, 0x80] (by decide), [], by decide +kernel, rfl⟩, by decide⟩

theorem forClients : ForClients device :=
  ⟨_, _, rfl,
    ⟨item 0x30 (item 0x06 clientAuth (by decide)).encode (by decide), [], by decide +kernel, rfl⟩,
    [], item 0x06 clientAuth (by decide), [], by decide +kernel, by decide⟩

theorem signed : crates.Signed ca2.subjectPublicKeyInfo device cert := by
  refine ⟨_, tbs, cut 356 442 cert, _, _,
    ⟨⟨0x30, cut 4 442 cert, .long [0x01, 0xb6], by decide +kernel⟩, [], by decide +kernel, rfl⟩,
    by decide +kernel, rfl, rfl, ?_⟩
  have body : tbs.encode = cut 4 356 cert := by decide +kernel
  simp [crates, body]

/-- The SGTIN of the device. -/
def sgtin : String := "3034F8319C007540000186A2"

theorem namedFor {endpoint : String} (same : eqIgnoreAsciiCase sgtin endpoint = true) :
    NamedFor device endpoint := by
  have text : (Library.Cbor.utf8 (uri.value.drop sgtinPrefix.length)).getD "" = sgtin := by
    decide +kernel
  exact ⟨_, _, _, rfl, ⟨item 0x30 uri.encode (by decide), [], by decide +kernel, rfl⟩,
    ⟨[], uri, [], by decide +kernel, rfl, by decide, by simp⟩, by rw [← text] at same; exact same⟩

theorem genuine {endpoint : String} (same : eqIgnoreAsciiCase sgtin endpoint = true) :
    crates.Genuine cert endpoint := by
  refine ⟨device, ca2, ca2.subjectPublicKeyInfo, if_pos rfl, ⟨ca2_bytes.2, .inr ⟨holds_ca2, ?_⟩⟩, rfl,
    maySign, forClients, signed, namedFor same⟩
  intro other held
  rw [holds_ca1 held]
  exact ca1_bytes.2

end Dmd

theorem accepted_exactly_dmd :
    Dmd.crates.validateDeviceCertificate Dmd.cert "3034f8319c007540000186a2" = some (.ok ()) ∧
      Dmd.crates.validateDeviceCertificate Dmd.cert "AABBCCDD00112233" ≠ some (.ok ()) := by
  have exact_ := accepted_exactly Dmd.cuts Dmd.cert (by decide +kernel)
  have accepted := (exact_.1 "3034f8319c007540000186a2").mpr (Dmd.genuine (by decide))
  refine ⟨accepted, fun other => ?_⟩
  have named := exact_.2 _ _ accepted other
  revert named
  decide +kernel

namespace Dmd

/-- The answer to GET /0/0: one SenML record with the certificate. -/
def payload : Bytes := [0x81, 0xA2, 0x00, 0x61, 0x33, 0x08, 0x59, 0x01, 0xba] ++ cert

/-- The gateway of the other runs, with the check that is modelled here and the
device's answer. For the device's own certificate the outcome is written out. -/
def env : Env where
  cborDecode bytes :=
    if bytes = payload then
      .ok (.array [.map [(.integer 0, .text "3"), (.integer 8, .bytes cert)]])
    else .error "Syntax(0)"
  toBytes := Peer.env.toBytes
  validateDeviceCertificate certDer endpoint :=
    if certDer = cert ∧ eqIgnoreAsciiCase sgtin endpoint = true then .ok ()
    else if crates.validateDeviceCertificate certDer endpoint = some (.ok ()) then .ok ()
    else .error (.bootstrap "certificate from unknown issuer")
  encryptNetworkKey := Peer.env.encryptNetworkKey
  serverPubkey := Peer.env.serverPubkey
  parseLinkFormat := Peer.env.parseLinkFormat
  buildDevicePayload := Peer.env.buildDevicePayload

theorem checks : Checks crates env := by
  intro certDer endpoint
  simp only [env]
  split
  · rename_i own
    obtain ⟨rfl, same⟩ := own
    exact iff_of_true rfl ((Crates.validate_ok cuts (by decide +kernel)).mpr (genuine same))
  · split
    · rename_i valid
      exact iff_of_true rfl valid
    · rename_i invalid
      exact iff_of_false (by simp) invalid

/-- A whole inclusion of the device. -/
def inclusion : List Action :=
  Peer.deliver (Peer.post "bs" sgtin) 6 ++
    Peer.deliver (Peer.ack 0x80000000 (.response .content) payload) 5 ++
    .includeDevice 1 :: Peer.deliver (Peer.post "bs" sgtin) 5 ++
    Peer.provision (.response .changed)

end Dmd

theorem key_encrypted_to_genuine_dmd :
    ∃ s, (serverMachine Dmd.env).exec (fun s action => Certificates.ReadsChecked s.core action)
        Peer.server Dmd.inclusion = some s ∧
      EncryptedTo s.log Dmd.sgtin Dmd.cert ∧
      Dmd.crates.Genuine Dmd.cert Dmd.sgtin := by
  obtain ⟨s, ran, reached, ends⟩ := (serverMachine Dmd.env).exec_reaches
    (fun s action => Certificates.ReadsChecked s.core action) Peer.server Dmd.inclusion
    (fun s => decide (Event.encrypted 0 Dmd.sgtin Dmd.cert ∈ s.log))
    ⟨_, _, _, _, _, rfl⟩ (by decide +kernel)
  have encrypted : EncryptedTo s.log Dmd.sgtin Dmd.cert :=
    ⟨0, of_decide_eq_true ends⟩
  have all := key_encrypted_to_genuine Dmd.checks Dmd.cuts reached Dmd.cert (by decide +kernel)
  exact ⟨s, ran, encrypted, (all.1 _ encrypted).1⟩

end Lwm2mServer.DeviceCertificates
