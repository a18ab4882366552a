import Lwm2mServer.Coap
import Lwm2mServer.Registry
import Mathlib.Data.List.Sort

/-! `persistence.rs`: the document `save_registry` writes, and what
`load_registry` makes of a parsed `wakaama.json`. The two are written
separately over untyped JSON. On reading, missing or malformed fields are
replaced by defaults and numbers are cut to the width they are stored in, as
the source does. Documents are JSON values here: `serde_json` prints and parses
them. -/
namespace Lwm2mServer
open Library

/-! ## `Ipv6Addr::from_str` -/

/-- `char::to_digit`, for a radix up to 16. -/
def toDigit (radix : Nat) (c : Char) : Option Nat :=
  let value :=
    if c.isDigit then some (c.toNat - '0'.toNat)
    else if 'a' ≤ c ∧ c ≤ 'f' then some (c.toNat - 'a'.toNat + 10)
    else if 'A' ≤ c ∧ c ≤ 'F' then some (c.toNat - 'A'.toNat + 10)
    else none
  value.filter (· < radix)

/-- `Parser::read_number`: all the digits that follow, at least one and at most
`maxDigits`, with a value below `bound`. -/
def readNumber (radix maxDigits bound : Nat) (zeroPrefix : Bool) (chars : List Char) :
    Option (Nat × List Char) :=
  let digits := chars.takeWhile fun c => (toDigit radix c).isSome
  let value := (digits.filterMap (toDigit radix)).foldl (fun acc digit => acc * radix + digit) 0
  let padded := digits.head? = some '0' ∧ 1 < digits.length
  if digits = [] ∨ maxDigits < digits.length ∨ bound ≤ value ∨ (zeroPrefix = false ∧ padded) then
    none
  else some (value, chars.drop digits.length)

/-- `Parser::read_given_char`. -/
def readGivenChar (expected : Char) : List Char → Option (List Char)
  | c :: rest => if c = expected then some rest else none
  | [] => none

/-- `Parser::read_separator`: the separator stands before every item but the
first. -/
def readSeparator {α : Type} (separator : Char) (index : Nat)
    (inner : List Char → Option (α × List Char)) (chars : List Char) : Option (α × List Char) :=
  if index = 0 then inner chars else (readGivenChar separator chars).bind inner

/-- `Parser::read_ipv4_addr`, with `left` octets still to come. -/
def readOctets : (left index : Nat) → List Char → Option (List Nat × List Char)
  | 0, _, chars => some ([], chars)
  | left + 1, index, chars => do
    let (octet, chars) ← readSeparator '.' index (readNumber 10 3 256 false) chars
    let (rest, chars) ← readOctets left (index + 1) chars
    return (octet :: rest, chars)

/-- `read_groups`: the groups read, whether the last two came from an embedded
IPv4 address, and the text that follows. -/
def readGroups : (left index : Nat) → List Char → List Nat × Bool × List Char
  | 0, _, chars => ([], false, chars)
  | left + 1, index, chars =>
    -- an embedded IPv4 address takes two groups
    match if 0 < left then readSeparator ':' index (readOctets 4 0) chars else none with
    | some ([one, two, three, four], chars) => ([one * 256 + two, three * 256 + four], true, chars)
    | _ =>
      match readSeparator ':' index (readNumber 16 4 65536 true) chars with
      | some (group, chars) =>
        let (rest, ipv4, chars) := readGroups left (index + 1) chars
        (group :: rest, ipv4, chars)
      | none => ([], false, chars)

def ipv6OfGroups (groups : List Nat) : BitVec 128 :=
  BitVec.ofNat 128 (groups.foldl (fun acc group => acc * 65536 + group) 0)

/-- `Ipv6Addr::from_str`: eight groups, or fewer with one `::` between them. -/
def parseIpv6 (text : String) : Option (BitVec 128) :=
  let (head, headIpv4, chars) := readGroups 8 0 text.toList
  if head.length = 8 then
    if chars = [] then some (ipv6OfGroups head) else none
  else if headIpv4 then none
  else do
    let chars ← readGivenChar ':' (← readGivenChar ':' chars)
    let (tail, _, chars) := readGroups (7 - head.length) 0 chars
    let zeros := List.replicate (8 - head.length - tail.length) 0
    if chars = [] then some (ipv6OfGroups (head ++ zeros ++ tail)) else none

example : parseIpv6 "fc00:6:100::1" = some 0xfc000006010000000000000000000001 := by decide

/-- `Ipv6Addr::LOCALHOST`. -/
def ipv6Localhost : BitVec 128 := 1

/-! ## The text of an address -/

/-- `Ipv4Addr::to_string`. -/
def ipv4Text (ip : UInt32) : String :=
  joinText '.' ([24, 16, 8, 0].map fun shift : UInt32 => toString (ip >>> shift).toUInt8.toNat)

/-- `Ipv6Addr::segments`. -/
def ipv6Groups (ip : BitVec 128) : List Nat :=
  [7, 6, 5, 4, 3, 2, 1, 0].map fun place => ip.toNat / 65536 ^ place % 65536

/-- `fmt_subslice`: lower-case hexadecimal groups with colons between them. -/
def groupsText (groups : List Nat) : List Char :=
  List.intercalate [':'] (groups.map (Nat.toDigits 16))

/-- The first of the longest runs of zero groups, as its start and length:
`start` and `len` are those of the run being read at `index`. -/
def longestZeros (index start len : Nat) (longest : Nat × Nat) : List Nat → Nat × Nat
  | [] => longest
  | 0 :: rest =>
    let start := if len = 0 then index else start
    longestZeros (index + 1) start (len + 1)
      (if longest.2 < len + 1 then (start, len + 1) else longest) rest
  | _ :: rest => longestZeros (index + 1) 0 0 longest rest

/-- `Ipv6Addr::to_string`: an IPv4-mapped address in dotted form, else the
groups with the longest run of at least two zeros left out. -/
def ipv6Text (ip : BitVec 128) : String :=
  let groups := ipv6Groups ip
  if groups.take 6 = [0, 0, 0, 0, 0, 0xffff] then
    "::ffff:" ++ ipv4Text (UInt32.ofNat (ip.toNat % 2 ^ 32))
  else
    let (start, len) := longestZeros 0 0 0 (0, 0) groups
    if 1 < len then
      String.ofList (groupsText (groups.take start) ++ [':', ':'] ++
        groupsText (groups.drop (start + len)))
    else String.ofList (groupsText groups)

example : ipv6Text 0xfc000006000000000000000100000000 = "fc00:6::1:0:0" := by decide

example : ipv6Text 0x00000000000000000000ffff0a000001 = "::ffff:10.0.0.1" := by decide

/-! ## `save_registry` -/

/-- The numeric id an object path begins with. -/
def leadingId (path : String) : Option UInt32 := parseU32 ((splitText '/' path).headD "")

/-- `obj_map.entry(id).or_default()` for the id of a path. -/
def nameObject (map : Table UInt32 String) (path : String) : Table UInt32 String :=
  match leadingId path with
  | some id => if (map.lookup id).isSome then map else map.insert id ""
  | none => map

/-- The versions by object id; an id that only the object list names gets the
empty version. -/
def objectMap (s : DeviceSnapshot) : Table UInt32 String :=
  s.objects.foldl nameObject s.objectVersions

/-- The object ids of an entry, in order. -/
def objectIds (s : DeviceSnapshot) : List UInt32 := (objectMap s).keys.insertionSort (· ≤ ·)

def saveObjects (s : DeviceSnapshot) : List Json :=
  (objectIds s).map fun id => .object
    [("id", .int id.toNat), ("ver", .str (((objectMap s).lookup id).getD "")), ("inst", .arr [])]

/-- The text and the port an address is stored as. -/
def addrText : SocketAddr → String × UInt16
  | .v6 ip port _ _ => (ipv6Text ip, port)
  | .v4 ip port => (ipv4Text ip, port)

/-- One client entry. -/
def saveClient (sessionTo : String) (index : Nat) (s : DeviceSnapshot) : Json :=
  let (addr, port) := addrText s.addr
  .object
    [("id", .int index), ("reg_id", .int s.id.toNat), ("ep", .str ("urn:dev:sg:" ++ s.endpoint)),
      ("lwm2m", .str s.lwm2mVersion), ("b", .str s.bindingMode), ("ct", .int 112),
      ("lt", .int s.lifetime.toNat), ("end_of_life", .int s.endOfLife),
      ("objects", .arr (saveObjects s)),
      ("session", .object
        [("id", .arr [.str addr, .int port.toNat]), ("to", .str sessionTo), ("tc", .int 28),
          ("data", .object [])])]

/-- `save_registry`, up to the write; `sessionTo` is the server's own address,
from its URI. -/
def saveRegistry (sessionTo : String) (snapshots : List DeviceSnapshot) : Json :=
  .object
    [("file_version", .int 2),
      ("clients", .arr (snapshots.mapIdx (saveClient sessionTo)))]

/-! ## The other files -/

/-- `save_included`, up to the write. -/
def saveIncluded (endpoints : List String) : Json := .arr (endpoints.map .str)

/-- `load_included`: the empty list unless the document is a list of strings. -/
def loadIncluded (doc : Option Json) : List String :=
  ((doc.bind Json.asArray).bind fun items => items.mapM Json.asStr).getD []

/-- One call of `save_registry`, `save_included` or `save_device_state`. -/
inductive Save where
  | registry (snapshots : List DeviceSnapshot)
  | included (endpoints : List String)
  | deviceState (endpoint : String) (state : Json)

/-- The files that are saved: `wakaama.json`, `included_devices.json` and
`devices/<endpoint>.json`. -/
inductive Target where
  | registry
  | included
  | deviceState (endpoint : String)
  deriving DecidableEq

def Save.target : Save → Target
  | .registry _ => .registry
  | .included _ => .included
  | .deviceState endpoint _ => .deviceState endpoint

/-- The document a call serialises. -/
def Save.document (sessionTo : String) : Save → Json
  | .registry snapshots => saveRegistry sessionTo snapshots
  | .included endpoints => saveIncluded endpoints
  | .deviceState _ state => state

/-! ## `load_registry` -/

/-- The address of a client entry: port 0 of `::1` when the session is missing. -/
def loadAddr (client : Json) : SocketAddr :=
  match ((client.get "session").get "id").asArray with
  | some arr =>
    let ipStr := ((arr[0]?).bind Json.asStr).getD "::1"
    let port := UInt16.ofNat (((arr[1]?).bind Json.asU64).getD 0)
    .v6 ((parseIpv6 ipStr).getD ipv6Localhost) port 0 0
  | none => .v6 ipv6Localhost 0 0 0

/-- The objects of a client entry and the versions that are not empty. -/
def loadObjects (client : Json) : List String × Table UInt32 String :=
  match (client.get "objects").asArray with
  | some objs =>
    objs.foldl (fun (objList, verMap) obj =>
      let objId := UInt32.ofNat ((obj.get "id").asU64.getD 0)
      let ver := (obj.get "ver").asStr.getD ""
      (objList ++ [toString objId.toNat ++ "/0"],
        if ver = "" then verMap else verMap.insert objId ver)) ([], ∅)
  | none => ([], ∅)

/-- One round of the loop over the client entries; `now` is in Unix seconds.
An entry without an endpoint or past its end of life is skipped. -/
def loadClient (now : Nat) (client : Json) : Option DeviceSnapshot := do
  let epFull ← (client.get "ep").asStr
  let endOfLife := (client.get "end_of_life").asU64.getD 0
  if endOfLife ≤ now then none
  else
    let (objects, objectVersions) := loadObjects client
    return {
      id := UInt32.ofNat ((client.get "reg_id").asU64.getD 0)
      endpoint := sgtinFromEp epFull
      addr := loadAddr client
      lifetime := UInt32.ofNat (endOfLife - now)
      objects
      objectVersions
      lwm2mVersion := (client.get "lwm2m").asStr.getD "1.1"
      bindingMode := (client.get "b").asStr.getD ""
      endOfLife }

/-- `load_registry`; the document is `none` when the file cannot be read or is
not JSON. -/
def loadRegistry (now : Nat) (doc : Option Json) : List DeviceSnapshot :=
  match doc.bind fun doc => (doc.get "clients").asArray with
  | some clients => clients.filterMap (loadClient now)
  | none => []

end Lwm2mServer
