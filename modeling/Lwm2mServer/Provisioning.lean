import Lwm2mServer.Coap

/-! The messages of the bootstrap exchange: the certificate payload read from
GET /0/0 and the five requests of the write phase with the SenML+CBOR objects
they carry. -/
namespace Lwm2mServer
open Library

/-! ## Reading the certificate -/

/-- `ciborium::value::Value`; floats are carried as their bits. -/
inductive Cbor where
  | integer (value : Int)
  | bytes (value : Bytes)
  | float (bits : UInt64)
  | text (value : String)
  | bool (value : Bool)
  | null
  | tag (tag : UInt64) (value : Cbor)
  | array (items : List Cbor)
  | map (fields : List (Cbor × Cbor))

/-- The `n` and `vd` of one SenML record: the last field of each kind counts. -/
def nameAndData (fields : List (Cbor × Cbor)) : Option String × Option Bytes :=
  fields.foldl (fun (name, vd) field => match field with
    | (.integer 0, .text s) => (some s, vd)
    | (.integer 8, .bytes b) => (name, some b)
    | _ => (name, vd)) (none, none)

/-- The loop over the records: the first record named `3` decides. -/
def findPubkey : List Cbor → Except Error Bytes
  | [] => .error (.bootstrap "device public key (resource /0/0/3) not found in GET /0/0 payload")
  | .map fields :: rest =>
    let (name, vd) := nameAndData fields
    if name = some "3" then
      match vd with
      | some b => .ok b
      | none => .error (.bootstrap "resource 3 has no bytes value")
    else findPubkey rest
  | _ :: rest => findPubkey rest

/-- `bootstrap.rs::parse_device_pubkey`, over the decoder's result. -/
def parseDevicePubkey (decoded : Except String Cbor) : Except Error Bytes :=
  match decoded with
  | .error e => .error (.bootstrap ("CBOR decode: " ++ e))
  | .ok (.array records) => findPubkey records
  | .ok _ => .error (.bootstrap "expected CBOR array")

/-! ## SenML+CBOR objects -/

/-- `cbor_head`; values from `2 ^ 32` on lose their high bits. -/
def cborHead (major : UInt8) (val : UInt64) : Bytes :=
  let m := major <<< 5
  if val ≤ 23 then [m ||| val.toUInt8]
  else if val ≤ 0xFF then [m ||| 24, val.toUInt8]
  else if val ≤ 0xFFFF then [m ||| 25, (val >>> 8).toUInt8, val.toUInt8]
  else [m ||| 26, (val >>> 24).toUInt8, (val >>> 16).toUInt8, (val >>> 8).toUInt8, val.toUInt8]

def cborUint (v : UInt64) : Bytes := cborHead 0 v

def cborText (s : String) : Bytes :=
  let utf8 := s.toUTF8.data.toList
  cborHead 3 (UInt64.ofNat utf8.length) ++ utf8

def cborBytesVal (b : Bytes) : Bytes := cborHead 2 (UInt64.ofNat b.length) ++ b

def cborArrayHeader (n : Nat) : Bytes := cborHead 4 (UInt64.ofNat n)

def cborMapHeader (n : Nat) : Bytes := cborHead 5 (UInt64.ofNat n)

namespace Senml

/-- The one-byte labels, under the source's names in lower case. -/
def bn : UInt8 := 0x21
def n : UInt8 := 0x00
def v : UInt8 := 0x02
def vs : UInt8 := 0x03
def vb : UInt8 := 0x04
def vd : UInt8 := 0x08

end Senml

open Senml in
/-- `encode_server_object`: short server id 1, lifetime 86400 s, no
notification storing, binding U. -/
def encodeServerObject : Bytes :=
  cborArrayHeader 4 ++
    (cborMapHeader 3 ++ bn :: cborText "/1/1/" ++ n :: cborText "0" ++ v :: cborUint 1) ++
    (cborMapHeader 2 ++ n :: cborText "1" ++ v :: cborUint 86400) ++
    (cborMapHeader 2 ++ n :: cborText "6" ++ [vb, 0xf4]) ++
    (cborMapHeader 2 ++ n :: cborText "7" ++ vs :: cborText "U")

open Senml in
/-- `encode_security_object`. -/
def encodeSecurityObject (serverUri : String) (serverPubkey networkKey : Bytes) : Bytes :=
  cborArrayHeader 6 ++
    (cborMapHeader 3 ++ bn :: cborText "/0/1/" ++ n :: cborText "0" ++ vs :: cborText serverUri) ++
    (cborMapHeader 2 ++ n :: cborText "1" ++ [vb, 0xf4]) ++
    (cborMapHeader 2 ++ n :: cborText "10" ++ v :: cborUint 1) ++
    (cborMapHeader 2 ++ n :: cborText "2" ++ v :: cborUint 3) ++
    (cborMapHeader 2 ++ n :: cborText "4" ++ vd :: cborBytesVal serverPubkey) ++
    (cborMapHeader 2 ++ n :: cborText "5" ++ vd :: cborBytesVal networkKey)

/-! ## The requests of the write phase -/

/-- The five steps, in the order `bootstrap_write_phase` takes them. -/
inductive WriteStep where
  | deleteServer
  | putServer
  | deleteSecurity
  | putSecurity
  | postBs
  deriving DecidableEq, Repr

namespace WriteStep

/-- The step taken before this one. -/
def previous : WriteStep → Option WriteStep
  | .deleteServer => none
  | .putServer => some .deleteServer
  | .deleteSecurity => some .putServer
  | .putSecurity => some .deleteSecurity
  | .postBs => some .putSecurity

/-- The step taken after this one. -/
def following : WriteStep → Option WriteStep
  | .deleteServer => some .putServer
  | .putServer => some .deleteSecurity
  | .deleteSecurity => some .putSecurity
  | .putSecurity => some .postBs
  | .postBs => none

end WriteStep

/-- `build_delete`. -/
def buildDelete (mid : UInt16) (token : Bytes) (path : List String) : Packet where
  type := .confirmable
  code := .request .delete
  messageId := mid
  token := token
  uriPath := path

/-- `build_put`. -/
def buildPut (mid : UInt16) (token : Bytes) (path : List String) (cf : UInt16) (payload : Bytes) :
    Packet where
  type := .confirmable
  code := .request .put
  messageId := mid
  token := token
  uriPath := path
  contentFormat := some (encodeContentFormat cf)
  payload := payload

/-- `build_post_bs`. -/
def buildPostBs (mid : UInt16) (token : Bytes) : Packet where
  type := .confirmable
  code := .request .post
  messageId := mid
  token := token
  uriPath := ["bs"]

/-- The GET /0/0 that `handle_bootstrap` sends. -/
def buildGet (mid : UInt16) (token : Bytes) : Packet where
  type := .confirmable
  code := .request .get
  messageId := mid
  token := token
  uriPath := ["0", "0"]

/-- The request of a step; `security` is the encoded Security Object, used by
PUT /0/1 only. -/
def WriteStep.request (step : WriteStep) (mid : UInt16) (token : Token) (security : Bytes) : Packet :=
  match step with
  | .deleteServer => buildDelete mid (wireToken token) ["1"]
  | .putServer => buildPut mid (wireToken token) ["1", "1"] senmlCbor encodeServerObject
  | .deleteSecurity => buildDelete mid (wireToken token) ["0"]
  | .putSecurity => buildPut mid (wireToken token) ["0", "1"] senmlCbor security
  | .postBs => buildPostBs mid (wireToken token)

end Lwm2mServer
