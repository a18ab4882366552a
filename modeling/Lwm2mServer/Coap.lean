import Lwm2mServer.Model

/-! Reading requests and building packets: the pure helpers of `server.rs` and
`mod.rs` that stand between a CoAP packet and the handlers. -/
namespace Lwm2mServer
open Library

/-- `str::split` on one character. -/
def splitText (separator : Char) (text : String) : List String :=
  (text.toList.splitOn separator).map String.ofList

/-- `[..].join(separator)`. -/
def joinText (separator : Char) (parts : List String) : String :=
  String.ofList (List.intercalate [separator] (parts.map String.toList))

/-- `server.rs::uri_path`. -/
def uriPath (packet : Packet) : String := joinText '/' packet.uriPath

/-- `server.rs::uri_query`. -/
def uriQuery (packet : Packet) : String := joinText '&' packet.uriQuery

/-- `str::parse::<u32>`: an optional plus sign and at least one decimal digit,
below `2 ^ 32`. -/
def parseU32 (text : String) : Option UInt32 :=
  let digits := match text.toList with
    | '+' :: rest => rest
    | chars => chars
  if digits ≠ [] ∧ digits.all Char.isDigit then
    let value := digits.foldl (fun acc digit => acc * 10 + (digit.toNat - '0'.toNat)) 0
    if value < 2 ^ 32 then some (UInt32.ofNat value) else none
  else none

/-- A printed number is read back. -/
theorem parseU32_toDigits (n : UInt32) :
    parseU32 (String.ofList (Nat.toDigits 10 n.toNat)) = some n := by
  have digits : ∀ c ∈ Nat.toDigits 10 n.toNat, c.isDigit := fun c member =>
    Nat.isDigit_of_mem_toDigits (by decide) (by decide) member
  have value : (Nat.toDigits 10 n.toNat).foldl
      (fun acc digit => acc * 10 + (digit.toNat - '0'.toNat)) 0 = n.toNat := by
    have folded : Nat.ofDigitChars 10 (Nat.toDigits 10 n.toNat) 0 = n.toNat :=
      Nat.ofDigitChars_ten_toDigits
    simpa [Nat.ofDigitChars_eq_foldl, Nat.mul_comm] using folded
  have all : Nat.toDigits 10 n.toNat ≠ [] ∧ (Nat.toDigits 10 n.toNat).all Char.isDigit = true :=
    ⟨Nat.toDigits_ne_nil, List.all_eq_true.mpr digits⟩
  rw [parseU32, String.toList_ofList]
  dsimp only
  split
  · rename_i rest signed
    exact absurd (digits '+' (by simp [signed])) (by decide)
  · rw [if_pos all, value, if_pos n.toNat_lt]
    simp

/-- A printed number has no slash. -/
theorem slash_notMem_toDigits (n : Nat) : '/' ∉ Nat.toDigits 10 n := fun member =>
  absurd (Nat.isDigit_of_mem_toDigits (by decide) (by decide) member) (by decide)

/-- `kv.splitn(2, '=')`: what stands before and after the first `=`, nothing
when there is none. -/
def splitPair (text : String) : String × String :=
  let chars := text.toList
  (String.ofList (chars.takeWhile (· ≠ '=')), String.ofList ((chars.dropWhile (· ≠ '=')).drop 1))

/-- `server.rs::parse_query`: of repeated keys the last one counts. -/
def parseQuery (query : String) : Table String String :=
  (splitText '&' query).foldl (fun params pair =>
    params.insert (splitPair pair).1 (splitPair pair).2) ∅

/-- `mod.rs::sgtin_from_ep`: what follows the last colon. -/
def sgtinFromEp (ep : String) : String :=
  String.ofList (ep.toList.reverse.takeWhile (· ≠ ':')).reverse

/-- The endpoint a request names: `ep=` without its URN prefix, empty when
the parameter is missing. -/
def endpointOf (packet : Packet) : String :=
  sgtinFromEp (((parseQuery (uriQuery packet)).lookup "ep").getD "")

/-- `server.rs::make_response`. -/
def makeResponse (request : Packet) (status : Status) : Packet where
  type := .acknowledgement
  code := .response status
  messageId := request.messageId
  token := request.token

/-- `mod.rs::encode_content_format`. -/
def encodeContentFormat (cf : UInt16) : Bytes :=
  if cf ≤ 0xFF then [cf.toUInt8] else [(cf >>> 8).toUInt8, cf.toUInt8]

def senmlCbor : UInt16 := 112

/-- `&token[..4]`: the part of an allocated token that goes on the wire. -/
def wireToken (token : Token) : Bytes := token.toList.take 4

/-- What `handle_post` matches a request's path to. -/
inductive PostPath where
  | bootstrap
  | registration
  | update
  | data
  | unknown
  deriving DecidableEq, Repr

/-- `handle_post`: leading slashes are ignored, and any second segment makes
`rd` an update. -/
def postPath (packet : Packet) : PostPath :=
  match splitText '/' (String.ofList ((uriPath packet).toList.dropWhile (· = '/'))) with
  | ["bs"] => .bootstrap
  | ["rd"] => .registration
  | ["rd", _] => .update
  | ["dp"] => .data
  | _ => .unknown

example : endpointOf
    { type := .confirmable, code := .request .post, messageId := 1, token := []
      uriQuery := ["ep=urn:dev:sg:3034F8319C00754000000097", "pct=112"] } =
    "3034F8319C00754000000097" := by decide

example : postPath
    { type := .confirmable, code := .request .post, messageId := 1, token := []
      uriPath := ["rd", "17"] } = .update := by decide

end Lwm2mServer
