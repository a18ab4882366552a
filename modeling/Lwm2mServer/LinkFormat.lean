import Lwm2mServer.Coap
import Lwm2mServer.Library.Slices

/-! `parse_link_format` of `server.rs`, which reads the body of a registration.
It cuts links by byte positions and takes for granted that a link with a `>`
begins with a `<`; nothing checks it. -/
namespace Lwm2mServer.LinkFormat
open Library

/-- `char::is_whitespace`. -/
def isWhitespace (c : Char) : Bool :=
  let n := c.toNat
  (0x9 ≤ n && n ≤ 0xd) || n = 0x20 || n = 0x85 || n = 0xa0 || n = 0x1680 ||
    (0x2000 ≤ n && n ≤ 0x200a) || n = 0x2028 || n = 0x2029 || n = 0x202f || n = 0x205f || n = 0x3000

/-- `str::trim`. -/
def trim (chars : List Char) : List Char :=
  (((chars.dropWhile isWhitespace).reverse).dropWhile isWhitespace).reverse

/-- The links of a body, as the loop sees them. -/
def links (body : String) : List (List Char) :=
  (splitText ',' body).map fun link => trim link.toList

/-- The value of the first `ver=` attribute, empty when there is none. -/
def version (attrs : List Char) : String :=
  (((attrs.splitOn ';').filterMap fun attr =>
    if "ver=".toList <+: attr then some (attr.drop 4) else none).head?.map String.ofList).getD ""

/-- One round of the loop over the links; `none` is a slice that panics. -/
def readLink (acc : List String × Table UInt32 String) (link : List Char) :
    Option (List String × Table UInt32 String) :=
  match findByte '>' link with
  | none => some acc
  | some angleEnd => do
    let path := (← sliceBytes 1 angleEnd link).dropWhile (· = '/')
    let attrs ← sliceFrom (angleEnd + 1) link
    let ver := version attrs
    let versions := match parseU32 (String.ofList ((path.splitOn '/').headD [])) with
      | some objId => if ver = "" then acc.2 else acc.2.insert objId ver
      | none => acc.2
    return (acc.1 ++ [String.ofList path], versions)

/-- `parse_link_format`. -/
def parseLinkFormat (body : String) : Option (List String × Table UInt32 String) :=
  (links body).foldlM readLink ([], ∅)

example : ((parseLinkFormat "</3/0>;ver=1.1,</4/0>;ver=1.2,</5/0>").map fun result =>
    (result.1, result.2.lookup 3, result.2.lookup 4, result.2.lookup 5)) =
    some (["3/0", "4/0", "5/0"], some "1.1", some "1.2", none) := by decide +kernel

/-- A link that has a `>` begins with some other character of one byte. -/
def Opened (link : List Char) : Prop :=
  '>' ∈ link → ∃ c rest, link = c :: rest ∧ c ≠ '>' ∧ c.utf8Size = 1

variable {link : List Char}

/-- Behind the first `>`, which is one byte long, a link can always be cut. -/
theorem sliceFrom_angleEnd (front back : List Char) :
    sliceFrom (byteLen front + 1) (front ++ '>' :: back) = some back := by
  have size : byteLen (front ++ ['>']) = byteLen front + 1 := by
    simp [byteLen]
    rfl
  have parts : front ++ '>' :: back = (front ++ ['>']) ++ back := by simp
  rw [sliceFrom, ← size, parts, splitAtByte_append]
  rfl

/-- A round of the loop returns exactly if the link can be cut behind its first
byte. -/
theorem readLink_isSome (acc : List String × Table UInt32 String) :
    (readLink acc link).isSome ↔ Opened link := by
  by_cases closed : '>' ∈ link
  · obtain ⟨front, back, rfl, first⟩ := List.eq_append_cons_of_mem closed
    have returns : (readLink acc (front ++ '>' :: back)).isSome ↔
        (sliceBytes 1 (byteLen front) (front ++ '>' :: back)).isSome := by
      rw [readLink, findByte_append first]
      dsimp only
      rw [sliceFrom_angleEnd]
      cases sliceBytes 1 (byteLen front) (front ++ '>' :: back) <;> simp
    rw [returns, sliceBytes_one_isSome]
    constructor
    · rintro ⟨c, rest, rfl, narrow⟩ _
      refine ⟨c, rest ++ '>' :: back, rfl, ?_, narrow⟩
      exact fun same => first (same ▸ List.mem_cons_self)
    · intro opened
      obtain ⟨c, rest, begins, other, narrow⟩ := opened closed
      cases front with
      | nil =>
        cases begins
        exact absurd rfl other
      | cons head tail =>
        cases begins
        exact ⟨c, tail, rfl, narrow⟩
  · have skipped : findByte '>' link = none := if_neg closed
    rw [readLink, skipped]
    exact iff_of_true rfl fun member => absurd member closed

/-- **The body of a registration is parsed without a panic exactly if every
link that has a `>` begins with some other character of one byte.** -/
theorem parseLinkFormat_isSome_iff (body : String) :
    (parseLinkFormat body).isSome ↔ ∀ link ∈ links body, Opened link := by
  unfold parseLinkFormat
  generalize (([], ∅) : List String × Table UInt32 String) = acc
  induction links body generalizing acc with
  | nil => simp
  | cons link rest ih =>
    rw [List.foldlM_cons, List.forall_mem_cons, ← readLink_isSome acc]
    cases readLink acc link with
    | none => simp
    | some next => simpa using ih next

/-- A lone `>` makes the receive loop panic, and so does a first character of
two bytes. -/
theorem parseLinkFormat_panics : ¬ (∀ body, (parseLinkFormat body).isSome) ∧
    parseLinkFormat ">" = none ∧ parseLinkFormat "é>" = none := by
  have lone : parseLinkFormat ">" = none := by decide +kernel
  refine ⟨fun returns => ?_, lone, by decide +kernel⟩
  have returned := returns ">"
  rw [lone] at returned
  cases returned

end Lwm2mServer.LinkFormat
