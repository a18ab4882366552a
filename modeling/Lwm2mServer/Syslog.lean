import Lwm2mServer.Library.Calendar
import Lwm2mServer.Library.Escaping
import Mathlib.Data.List.Induction

/-! `syslog_layer.rs`: the datagram that goes to the system log for an event.
Field values come from the network and hold any characters; the line is read
back here by RFC 5424, with the time by RFC 3339, to say that none of them can
pass for another field or for the end of the fields. -/
namespace Lwm2mServer.Syslog
open Library

/-! ## The datagram -/

inductive Level where
  | error
  | warn
  | info
  | debug
  | trace

def levelToSeverity : Level → Nat
  | .error => 3
  | .warn => 4
  | .info => 6
  | .debug | .trace => 7

def facilityUser : Nat := 1

def sdId : String := "bnw@55029"

/-- A field of an event as a visitor is given it; `Debug` and floating-point
values as the text they are printed as. -/
inductive FieldValue where
  | str (value : String)
  | debug (text : String)
  | i64 (value : Int)
  | u64 (value : UInt64)
  | bool (value : Bool)
  | f64 (text : String)

structure FieldVisitor where
  message : String := ""
  fields : List (String × String) := []

namespace FieldVisitor

def recordStr (visitor : FieldVisitor) (name value : String) : FieldVisitor :=
  if name = "message" then { visitor with message := value }
  else { visitor with fields := visitor.fields ++ [(name, value)] }

/-- The `record_*` methods; only strings and `Debug` values become the message. -/
def record (visitor : FieldVisitor) (name : String) : FieldValue → FieldVisitor
  | .str value => visitor.recordStr name value
  | .debug text => visitor.recordStr name text
  | .i64 value => { visitor with fields := visitor.fields ++ [(name, toString value)] }
  | .u64 value => { visitor with fields := visitor.fields ++ [(name, toString value.toNat)] }
  | .bool value => { visitor with fields := visitor.fields ++ [(name, toString value)] }
  | .f64 text => { visitor with fields := visitor.fields ++ [(name, text)] }

end FieldVisitor

/-- `event.record(&mut visitor)`. -/
def visited (event : List (String × FieldValue)) : FieldVisitor :=
  event.foldl (fun visitor (name, value) => visitor.record name value) {}

def escapeSd (v : String) : String :=
  String.ofList (v.toList.flatMap fun
    | '\\' => ['\\', '\\']
    | '"' => ['\\', '"']
    | ']' => ['\\', ']']
    | c => [c])

def buildSd (fields : List (String × String)) : String :=
  if fields = [] then "-"
  else fields.foldl (fun s (k, v) => s ++ " " ++ k ++ "=\"" ++ escapeSd v ++ "\"") ("[" ++ sdId) ++ "]"

/-- `{n:0width}`. -/
def padded (width n : Nat) : String :=
  let digits := Nat.toDigits 10 n
  String.ofList (List.replicate (width - digits.length) '0' ++ digits)

/-- The civil date of a day since the epoch. A time in seconds has fewer than
`2 ^ 48` days, so that nothing wraps. -/
def civil (days : Nat) : Int × Nat × Nat :=
  let z : Int := days + 719468
  let era := (if 0 ≤ z then z else z - 146096).tdiv 146097
  let doe := (z - era * 146097).toNat
  let yoe := (doe - doe / 1460 + doe / 36524 - doe / 146096) / 365
  let doy := doe - (365 * yoe + yoe / 4 - yoe / 100)
  let mp := (5 * doy + 2) / 153
  let day := doy - (153 * mp + 2) / 5 + 1
  let mon := if mp < 10 then mp + 3 else mp - 9
  (yoe + era * 400 + if mon ≤ 2 then 1 else 0, mon, day)

/-- `format_timestamp` at a time since the epoch. -/
def formatTimestamp (secs : UInt64) (millis : Nat) : String :=
  let sec := secs.toNat % 60
  let min := secs.toNat / 60 % 60
  let hour := secs.toNat / 3600 % 24
  let (yr, mon, day) := civil (secs.toNat / 86400)
  padded 4 yr.toNat ++ "-" ++ padded 2 mon ++ "-" ++ padded 2 day ++ "T" ++ padded 2 hour ++ ":" ++
    padded 2 min ++ ":" ++ padded 2 sec ++ "." ++ padded 3 millis ++ "Z"

structure SyslogLayer where
  hostname : String
  appName : String
  pid : UInt32

/-- The format of `msg`. -/
def formatLine (pri : Nat) (ts hostname app : String) (pid : Nat) (sd message : String) : String :=
  "<" ++ toString pri ++ ">1 " ++ ts ++ " " ++ hostname ++ " " ++ app ++ " " ++ toString pid ++
    " - " ++ sd ++ " " ++ message ++ "\n"

/-- `on_event`: what is sent. -/
def SyslogLayer.onEvent (layer : SyslogLayer) (secs : UInt64) (millis : Nat) (level : Level)
    (event : List (String × FieldValue)) : String :=
  let pri := facilityUser * 8 + levelToSeverity level
  let visitor := visited event
  formatLine pri (formatTimestamp secs millis) layer.hostname layer.appName layer.pid.toNat
    (buildSd visitor.fields) visitor.message

/-! ## The date -/

open Calendar

theorem january_monthly : 1 ≤ 1 ∧ 1 ≤ 12 := ⟨Nat.le_refl 1, Nat.le_add_left 1 11⟩

/-- 1 January 1970. -/
def epoch : Date := ⟨1970, 1, 1, january_monthly, ⟨Nat.le_refl 1, monthLength_pos ..⟩⟩

theorem number_after (days : Nat) : (Date.next^[days] epoch).number = days + 719468 := by
  induction days with
  | zero => decide
  | succ days ih =>
    rw [Function.iterate_succ_apply', Date.number_next, ih]
    push_cast
    omega

/-- The algorithm takes a day apart into the 400 years, the year and the day of
the year it lies in, counted from March. -/
private theorem civil_of_parts {days era year day : Nat} (small : year < 400)
    (within : day ≤ 364 ∨ (day = 365 ∧ year % 4 = 3 ∧ (year % 100 = 99 → year = 399)))
    (parts : days + 719468 = 146097 * era + (365 * year + year / 4 - year / 100 + day)) :
    civil days =
      let mp := (5 * day + 2) / 153
      let mon := if mp < 10 then mp + 3 else mp - 9
      ((year : Int) + era * 400 + if mon ≤ 2 then 1 else 0, mon, day - (153 * mp + 2) / 5 + 1) := by
  have positive : (0 : Int) ≤ days + 719468 := by omega
  have whole : 365 * year + year / 4 - year / 100 + day < 146097 := by omega
  have eras : ((days : Int) + 719468).tdiv 146097 = era := by
    rw [Int.tdiv_eq_ediv_of_nonneg positive]
    omega
  have rest : ((days : Int) + 719468 - era * 146097).toNat =
      365 * year + year / 4 - year / 100 + day := by omega
  have years : 365 * year + year / 4 - year / 100 + day - (365 * year + year / 4 - year / 100) = day :=
    Nat.add_sub_cancel_left ..
  simp only [civil, if_pos positive, eras, rest, year_of_day small within rfl, years]

/-- The date with the number of a day. -/
private theorem civil_number {date : Date} {days : Nat} (same : date.number = days + 719468) :
    civil days = ((date.year : Int), date.month, date.day) := by
  obtain ⟨year, month, day, monthly, daily⟩ := date
  have within := marchDay_le monthly daily
  have months := marchMonth_of_marchDay monthly daily
  have late : (0 : Int) ≤ if month ≤ 2 then (year : Int) - 1 else year := by
    by_contra early
    simp only [Date.number, dayNumber, daysBefore] at same
    omega
  obtain ⟨march, named⟩ := Int.eq_ofNat_of_zero_le late
  simp only [Date.number, dayNumber, daysBefore, named] at same
  have parts : days + 719468 = 146097 * (march / 400) +
      (365 * (march % 400) + march % 400 / 4 - march % 400 / 100 + marchDay month day) := by omega
  have month_ : (if marchMonth month < 10 then marchMonth month + 3 else marchMonth month - 9) =
      month := by
    unfold marchMonth
    split <;> split <;> omega
  have day_ : marchDay month day - (153 * marchMonth month + 2) / 5 + 1 = day := by
    unfold marchDay
    omega
  rw [civil_of_parts (Nat.mod_lt _ (by decide)) ?_ parts, months]
  · simp only [month_, day_]
    split at named
    · rename_i early
      rw [if_pos early]
      refine Prod.ext ?_ rfl
      dsimp only
      omega
    · rename_i late
      rw [if_neg late]
      refine Prod.ext ?_ rfl
      dsimp only
      omega
  · rcases within with short | ⟨last, february, leap⟩
    · exact Or.inl short
    · refine Or.inr ⟨last, ?_⟩
      rw [if_pos (by omega)] at named
      unfold Leap at leap
      omega

/-- **The printed date is the date of the calendar**: so many days after 1 January
1970, counted one by one. -/
theorem civil_follows (days : Nat) :
    civil days = (((Date.next^[days] epoch).year : Int), (Date.next^[days] epoch).month,
      (Date.next^[days] epoch).day) :=
  civil_number (number_after days)

/-! ## Reading a line back -/

/-- What stands before the first separator, and what comes after it. -/
def upTo (separator : Char) : List Char → Option (List Char × List Char)
  | [] => none
  | c :: rest =>
    if c = separator then some ([], rest)
    else (upTo separator rest).map fun (word, left) => (c :: word, left)

/-- The text that is expected here. -/
def expect : List Char → List Char → Option (List Char)
  | [], chars => some chars
  | c :: expected, chars => match chars with
    | next :: rest => if next = c then expect expected rest else none
    | [] => none

def number (digits : List Char) : Option Nat :=
  if digits ≠ [] ∧ digits.all Char.isDigit then some (Nat.ofDigitChars 10 digits 0) else none

/-- A number of exactly so many digits. -/
def fixed (width : Nat) (digits : List Char) : Option Nat :=
  if digits.length = width then number digits else none

/-- The time of an RFC 3339 timestamp in UTC with milliseconds: the seconds since
the epoch, and the milliseconds. -/
def readTimestamp (chars : List Char) : Option (Int × Nat) := do
  let (year, chars) ← upTo '-' chars
  let (month, chars) ← upTo '-' chars
  let (day, chars) ← upTo 'T' chars
  let (hour, chars) ← upTo ':' chars
  let (minute, chars) ← upTo ':' chars
  let (second, chars) ← upTo '.' chars
  let (millis, chars) ← upTo 'Z' chars
  let date ← Date.of (← fixed 4 year) (← fixed 2 month) (← fixed 2 day)
  let hour ← fixed 2 hour
  let minute ← fixed 2 minute
  let second ← fixed 2 second
  let millis ← fixed 3 millis
  if chars = [] ∧ hour < 24 ∧ minute < 60 ∧ second < 60 then
    return ((date.number - epoch.number) * 86400 + hour * 3600 + minute * 60 + second, millis)
  else none

variable {word rest chars : List Char} {separator : Char} {width n : Nat}

theorem upTo_word (clean : separator ∉ word) :
    upTo separator (word ++ separator :: rest) = some (word, rest) := by
  induction word with
  | nil => simp [upTo]
  | cons c word ih =>
    have other : c ≠ separator := fun same => clean (same ▸ List.mem_cons_self)
    simp [upTo, other, ih fun member => clean (List.mem_cons_of_mem _ member)]

theorem expect_append (expected : List Char) : expect expected (expected ++ rest) = some rest := by
  induction expected with
  | nil => rfl
  | cons c expected ih => simp [expect, ih]

section Steps
variable {α : Type} {read : List Char × List Char → Option α} {go : List Char → Option α}

/-- A reader goes on behind the word. -/
theorem bind_word (clean : separator ∉ word) :
    (upTo separator (word ++ separator :: rest)).bind read = read (word, rest) := by
  rw [upTo_word clean]
  rfl

theorem bind_expect {expected : List Char} : (expect expected (expected ++ rest)).bind go = go rest := by
  rw [expect_append]
  rfl

end Steps

theorem number_toDigits : number (Nat.toDigits 10 n) = some n := by
  have digits : ∀ c ∈ Nat.toDigits 10 n, c.isDigit = true := fun c member =>
    Nat.isDigit_of_mem_toDigits (by decide) (by decide) member
  rw [number, if_pos ⟨Nat.toDigits_ne_nil, List.all_eq_true.mpr digits⟩, Nat.ofDigitChars_ten_toDigits]

theorem toList_padded : (padded width n).toList =
    List.replicate (width - (Nat.toDigits 10 n).length) '0' ++ Nat.toDigits 10 n := by
  rw [padded, String.toList_ofList]

theorem isDigit_padded : ∀ c ∈ (padded width n).toList, c.isDigit = true := by
  rw [toList_padded]
  intro c member
  rcases List.mem_append.mp member with zero | digit
  · rw [List.eq_of_mem_replicate zero]
    rfl
  · exact Nat.isDigit_of_mem_toDigits (by decide) (by decide) digit

theorem notMem_padded (noDigit : separator.isDigit = false) : separator ∉ (padded width n).toList :=
  fun member => Bool.false_ne_true (noDigit.symm.trans (isDigit_padded separator member))

/-- A padded number ends before its separator. -/
theorem bind_padded {α : Type} {read : List Char × List Char → Option α}
    (noDigit : separator.isDigit = false) :
    (upTo separator ((padded width n).toList ++ separator :: rest)).bind read =
      read ((padded width n).toList, rest) :=
  bind_word (notMem_padded noDigit)

/-- A padded number is read back, if it fits. -/
theorem fixed_padded (positive : 0 < width) :
    fixed width (padded width n).toList = if n < 10 ^ width then some n else none := by
  have fits : (Nat.toDigits 10 n).length ≤ width ↔ n < 10 ^ width :=
    Nat.length_toDigits_le_iff (by decide) positive
  have length : (padded width n).toList.length = width ↔ n < 10 ^ width := by
    rw [toList_padded, List.length_append, List.length_replicate, ← fits]
    omega
  have value : number (padded width n).toList = some n := by
    have nonempty : (padded width n).toList ≠ [] := by
      rw [toList_padded]
      exact List.append_ne_nil_of_right_ne_nil _ Nat.toDigits_ne_nil
    rw [number, if_pos ⟨nonempty, List.all_eq_true.mpr isDigit_padded⟩, toList_padded,
      Nat.ofDigitChars_append, Nat.ofDigitChars_replicate_zero, Nat.mul_zero,
      Nat.ofDigitChars_ten_toDigits]
  simp only [fixed, length, value]

/-- The day on which five digits become necessary. -/
private theorem year_lt {date : Date} {days : Nat} (same : date.number = days + 719468) :
    date.year < 10000 ↔ days < 2932897 := by
  obtain ⟨year, month, day, monthly, daily⟩ := date
  have within := marchDay_le monthly daily
  have months := marchMonth_of_marchDay monthly daily
  have january : month ≤ 2 ↔ 306 ≤ marchDay month day := by
    unfold marchMonth at months
    split at months <;> omega
  simp only [Date.number, dayNumber, daysBefore] at same ⊢
  generalize marchDay month day = ofYear at *
  split at same <;> omega

/-- Every month and every day has two digits. -/
theorem two_digits (date : Date) : date.month < 10 ^ 2 ∧ date.day < 10 ^ 2 := by
  obtain ⟨year, month, day, monthly, daily⟩ := date
  have most : monthLength year month ≤ 31 := by
    unfold monthLength
    split
    · split <;> omega
    · split <;> omega
  dsimp only
  omega

/-- A timestamp is read back, up to the year 9999. -/
theorem readTimestamp_format (secs : UInt64) {millis : Nat} (part : millis < 10 ^ 3) :
    readTimestamp (formatTimestamp secs millis).toList =
      if secs.toNat < 253402300800 then some ((secs.toNat : Int), millis) else none := by
  have days := number_after (secs.toNat / 86400)
  have start : epoch.number = 719468 := by decide
  have years := year_lt days
  generalize named : Date.next^[secs.toNat / 86400] epoch = date at days years
  have text : (formatTimestamp secs millis).toList =
      (padded 4 date.year).toList ++ '-' :: ((padded 2 date.month).toList ++ '-' ::
        ((padded 2 date.day).toList ++ 'T' :: ((padded 2 (secs.toNat / 3600 % 24)).toList ++ ':' ::
          ((padded 2 (secs.toNat / 60 % 60)).toList ++ ':' :: ((padded 2 (secs.toNat % 60)).toList ++
            '.' :: ((padded 3 millis).toList ++ 'Z' :: [])))))) := by
    simp only [formatTimestamp, civil_follows, named, Int.toNat_natCast, String.toList_append]
    simp
  have hour : secs.toNat / 3600 % 24 < 10 ^ 2 := by omega
  have minute : secs.toNat / 60 % 60 < 10 ^ 2 := by omega
  have second : secs.toNat % 60 < 10 ^ 2 := by omega
  obtain ⟨month, day⟩ := two_digits date
  rw [text, readTimestamp, Option.bind_eq_bind]
  iterate 7
    rw [bind_padded rfl]
    dsimp only
  rw [fixed_padded (by decide), fixed_padded (by decide), fixed_padded (by decide),
    fixed_padded (by decide), fixed_padded (by decide), fixed_padded (by decide),
    fixed_padded (by decide), if_pos month, if_pos day, if_pos hour, if_pos minute, if_pos second,
    if_pos part]
  by_cases soon : date.year < 10 ^ 4
  · rw [if_pos soon, if_pos (by omega)]
    simp only [Option.bind_eq_bind, Option.bind_some, Date.of_date]
    rw [if_pos ⟨trivial, by omega, by omega, by omega⟩]
    refine congrArg some (Prod.ext ?_ rfl)
    dsimp only
    omega
  · rw [if_neg soon, if_neg (by omega)]
    rfl

/-! ## The fields of an event -/

/-- The text of a value. -/
def FieldValue.text : FieldValue → String
  | .str value => value
  | .debug text => text
  | .i64 value => toString value
  | .u64 value => toString value.toNat
  | .bool value => toString value
  | .f64 text => text

/-- What a visitor takes for the message of the event. -/
def isMessage : String × FieldValue → Bool
  | (name, .str _) | (name, .debug _) => name = "message"
  | _ => false

/-- The fields but for the messages, in order, and the last message. -/
theorem visited_eq (event : List (String × FieldValue)) :
    visited event =
      { fields := (event.filter (!isMessage ·)).map fun field => (field.1, field.2.text)
        message := (((event.filter isMessage).getLast?).map (·.2.text)).getD "" } := by
  induction event using List.reverseRecOn with
  | nil => rfl
  | append_singleton event field ih =>
    obtain ⟨name, value⟩ := field
    rw [visited, List.foldl_append, List.foldl_cons, List.foldl_nil, ← visited, ih]
    cases value with
    | str value | debug value =>
      by_cases named : name = "message"
      · simp [FieldVisitor.record, FieldVisitor.recordStr, isMessage, FieldValue.text, named]
      · simp [FieldVisitor.record, FieldVisitor.recordStr, isMessage, FieldValue.text, named]
    | _ => simp [FieldVisitor.record, isMessage, FieldValue.text]

/-! ## Structured data -/

/-- The characters with a backslash before them in a value. -/
def needsMark (c : Char) : Bool := c = '\\' || c = '"' || c = ']'

def readParams : Nat → List Char → Option (List (String × String) × List Char)
  | 0, _ => none
  | fuel + 1, c :: rest =>
    if c = ']' then some ([], rest)
    else if c = ' ' then do
      let (name, rest) ← upTo '=' rest
      let rest ← expect ['"'] rest
      let (value, rest) ← Escaping.read '\\' needsMark '"' false rest
      let (more, rest) ← readParams fuel rest
      return ((String.ofList name, String.ofList value) :: more, rest)
    else none
  | _ + 1, [] => none

/-- One element with the parameters, or none. -/
def readSd : List Char → Option (List (String × String) × List Char)
  | [] => none
  | c :: rest =>
    if c = '-' then some ([], rest)
    else if c = '[' then do
      let rest ← expect sdId.toList rest
      readParams (rest.length + 1) rest
    else none

theorem toList_escapeSd (v : String) :
    (escapeSd v).toList = Escaping.escape '\\' needsMark v.toList := by
  rw [escapeSd, String.toList_ofList, Escaping.escape]
  refine List.flatMap_congr fun c _ => ?_
  by_cases backslash : c = '\\'
  · subst backslash
    rfl
  · by_cases quote : c = '"'
    · subst quote
      rfl
    · by_cases bracket : c = ']'
      · subst bracket
        rfl
      · simp [needsMark, backslash, quote, bracket]

/-- A parameter as it is written. -/
def paramText (field : String × String) : List Char :=
  ' ' :: (field.1.toList ++ '=' :: '"' :: ((escapeSd field.2).toList ++ ['"']))

theorem toList_buildSd {fields : List (String × String)} (some_ : fields ≠ []) :
    (buildSd fields).toList = '[' :: (sdId.toList ++ (fields.flatMap paramText ++ [']'])) := by
  have params (start : String) : (fields.foldl
      (fun s (k, v) => s ++ " " ++ k ++ "=\"" ++ escapeSd v ++ "\"") start).toList =
        start.toList ++ fields.flatMap paramText := by
    clear some_
    induction fields generalizing start with
    | nil => simp
    | cons field fields ih =>
      rw [List.foldl_cons, ih]
      simp [paramText]
  rw [buildSd, if_neg some_, String.toList_append, params]
  simp

theorem readParams_write {fields : List (String × String)} {fuel : Nat}
    (names : ∀ field ∈ fields, '=' ∉ field.1.toList) (enough : fields.length < fuel) :
    readParams fuel (fields.flatMap paramText ++ ']' :: rest) = some (fields, rest) := by
  induction fields generalizing fuel with
  | nil =>
    obtain ⟨fuel, rfl⟩ := Nat.exists_eq_succ_of_ne_zero (Nat.ne_of_gt enough)
    simp [readParams]
  | cons field fields ih =>
    obtain ⟨fuel, rfl⟩ := Nat.exists_eq_succ_of_ne_zero (Nat.ne_of_gt (Nat.zero_lt_of_lt enough))
    have later := ih (fun field member => names field (List.mem_cons_of_mem _ member))
      (Nat.lt_of_succ_lt_succ enough)
    have own : '=' ∉ field.1.toList := names field List.mem_cons_self
    rw [List.flatMap_cons, paramText]
    simp only [List.cons_append, List.append_assoc, readParams]
    rw [if_neg (by decide), if_pos trivial, upTo_word own]
    simp only [Option.bind_eq_bind, Option.bind_some, expect, if_true, toList_escapeSd,
      List.nil_append]
    rw [Escaping.read_escape rfl rfl (by decide), Option.bind_some]
    dsimp only
    rw [later]
    simp

/-! ## The whole line -/

/-- What a line says. -/
structure Entry where
  pri : Nat
  secs : Int
  millis : Nat
  hostname : String
  appName : String
  pid : Nat
  fields : List (String × String)
  message : String

/-- Printable characters of US-ASCII other than the space, so many at most. -/
def printable (limit : Nat) (text : List Char) : Bool :=
  text ≠ [] && text.length ≤ limit && text.all fun c => '!' ≤ c && c ≤ '~'

/-- The name of a parameter. -/
def sdName (text : List Char) : Bool :=
  printable 32 text && text.all fun c => c ≠ '=' && c ≠ ']' && c ≠ '"'

/-- The host, the application and the parameters have names that the grammar
allows. -/
def wellNamed (hostname appName : String) (fields : List (String × String)) : Bool :=
  printable 255 hostname.toList && printable 48 appName.toList &&
    fields.all fun field => sdName field.1.toList

/-- A line by RFC 5424, version 1 and without a message id. -/
def readEntry (line : String) : Option Entry := do
  let rest ← expect ['<'] line.toList
  let (pri, rest) ← upTo '>' rest
  let rest ← expect ['1', ' '] rest
  let (timestamp, rest) ← upTo ' ' rest
  let (hostname, rest) ← upTo ' ' rest
  let (appName, rest) ← upTo ' ' rest
  let (pid, rest) ← upTo ' ' rest
  let rest ← expect ['-', ' '] rest
  let (fields, rest) ← readSd rest
  let message ← expect [' '] rest
  let pri ← number pri
  let pid ← number pid
  let (secs, millis) ← readTimestamp timestamp
  let hostname := String.ofList hostname
  let appName := String.ofList appName
  if message.getLast? = some '\n' ∧ pri < 192 ∧ wellNamed hostname appName fields then
    return { pri, secs, millis, hostname, appName, pid, fields, message := String.ofList message.dropLast }
  else none

theorem readSd_write {fields : List (String × String)}
    (names : ∀ field ∈ fields, '=' ∉ field.1.toList) :
    readSd ((buildSd fields).toList ++ rest) = some (fields, rest) := by
  by_cases none_ : fields = []
  · subst none_
    rfl
  · have length : fields.length ≤ (fields.flatMap paramText).length := by
      clear names none_
      induction fields with
      | nil => exact Nat.le_refl _
      | cons field fields ih =>
        simp only [List.flatMap_cons, List.length_cons, List.length_append, paramText]
        omega
    rw [toList_buildSd none_]
    simp only [List.cons_append, List.append_assoc, readSd]
    rw [if_neg (by decide), if_pos trivial, expect_append, Option.bind_eq_bind, Option.bind_some]
    refine readParams_write names ?_
    simp only [List.length_append, List.length_cons]
    omega

theorem notMem_timestamp {secs : UInt64} {millis : Nat} :
    ' ' ∉ (formatTimestamp secs millis).toList := by
  have clean {width n : Nat} : ' ' ∉ (padded width n).toList := notMem_padded rfl
  unfold formatTimestamp
  generalize civil (secs.toNat / 86400) = date
  obtain ⟨yr, mon, day⟩ := date
  simp [clean]

theorem notMem_toString {n : Nat} (noDigit : separator.isDigit = false) :
    separator ∉ (toString n).toList := by
  rw [Nat.toString_eq_ofList_toDigits, String.toList_ofList]
  intro member
  have digit := Nat.isDigit_of_mem_toDigits (by decide) (by decide) member
  exact Bool.false_ne_true (noDigit.symm.trans digit)

/-- The parts of a line. -/
private theorem toList_formatLine (pri pid : Nat) (ts hostname app sd message : String) :
    (formatLine pri ts hostname app pid sd message).toList =
      ['<'] ++ ((toString pri).toList ++ '>' :: (['1', ' '] ++ (ts.toList ++ ' ' ::
        (hostname.toList ++ ' ' :: (app.toList ++ ' ' :: ((toString pid).toList ++ ' ' ::
          (['-', ' '] ++ (sd.toList ++ ([' '] ++ (message.toList ++ ['\n'])))))))))) := by
  have opens : "<".toList = ['<'] := rfl
  have version : ">1 ".toList = ['>', '1', ' '] := rfl
  have space : " ".toList = [' '] := rfl
  have noId : " - ".toList = [' ', '-', ' '] := rfl
  have ends : "\n".toList = ['\n'] := rfl
  unfold formatLine
  iterate 14 rw [String.toList_append]
  rw [opens, version, space, noId, ends]
  simp only [List.append_assoc, List.cons_append, List.nil_append]

theorem readEntry_formatLine {pri pid millis : Nat} {ts hostname app message : String}
    {fields : List (String × String)} {secs : Int} (prival : pri < 192)
    (clock : readTimestamp ts.toList = some (secs, millis)) (noSpace : ' ' ∉ ts.toList)
    (host : ' ' ∉ hostname.toList) (name : ' ' ∉ app.toList)
    (names : ∀ field ∈ fields, '=' ∉ field.1.toList) :
    readEntry (formatLine pri ts hostname app pid (buildSd fields) message) =
      if wellNamed hostname app fields then
        some { pri, secs, millis, hostname, appName := app, pid, fields, message }
      else none := by
  have bracket : '>' ∉ (toString pri).toList := notMem_toString rfl
  have space : ' ' ∉ (toString pid).toList := notMem_toString rfl
  have digits (n : Nat) : number (toString n).toList = some n := by
    rw [Nat.toString_eq_ofList_toDigits, String.toList_ofList, number_toDigits]
  have ends : (message.toList ++ ['\n']).getLast? = some '\n' := by
    rw [List.getLast?_append]
    rfl
  unfold readEntry
  iterate 5 rw [Option.bind_eq_bind]
  rw [toList_formatLine, bind_expect, bind_word bracket]
  dsimp only
  rw [bind_expect, bind_word noSpace]
  dsimp only
  rw [bind_word host]
  dsimp only
  rw [bind_word name]
  dsimp only
  rw [bind_word space]
  dsimp only
  rw [bind_expect, readSd_write names, Option.bind_some]
  dsimp only
  rw [bind_expect, digits, Option.bind_some, digits, Option.bind_some, clock, Option.bind_some]
  dsimp only
  simp only [ends, prival, true_and, List.dropLast_concat, String.ofList_toList]
  rfl

/-- **A log line says what the event was**: at any time before the year 10000 and
for any values, a reader of RFC 5424 finds the level, the time, the process, the
fields with their values and the message, each as it was given, if the grammar
allows the names, and takes the line for none of its own if not. -/
theorem entry_read (layer : SyslogLayer) {secs : UInt64} {millis : Nat} (level : Level)
    {event : List (String × FieldValue)} (early : secs.toNat < 253402300800)
    (part : millis < 1000) (host : ' ' ∉ layer.hostname.toList) (app : ' ' ∉ layer.appName.toList)
    (names : ∀ field ∈ event, '=' ∉ field.1.toList) :
    let fields := (event.filter (!isMessage ·)).map fun field => (field.1, field.2.text)
    readEntry (layer.onEvent secs millis level event) =
      if wellNamed layer.hostname layer.appName fields then some {
        pri := 8 + levelToSeverity level
        secs := secs.toNat
        millis
        hostname := layer.hostname
        appName := layer.appName
        pid := layer.pid.toNat
        fields
        message := (((event.filter isMessage).getLast?).map (·.2.text)).getD "" }
      else none := by
  have clean : ∀ field ∈ (visited event).fields, '=' ∉ field.1.toList := by
    rw [visited_eq]
    intro field member
    obtain ⟨source, kept, rfl⟩ := List.mem_map.mp member
    exact names source (List.mem_of_mem_filter kept)
  have clock : readTimestamp (formatTimestamp secs millis).toList = some ((secs.toNat : Int), millis) := by
    rw [readTimestamp_format secs part, if_pos early]
  have prival : 1 * 8 + levelToSeverity level < 192 := by cases level <;> decide
  unfold SyslogLayer.onEvent facilityUser
  dsimp only
  rw [readEntry_formatLine prival clock notMem_timestamp host app clean, visited_eq, Nat.one_mul]

theorem entry_read_quoted :
    readEntry (SyslogLayer.onEvent ⟨"gateway", "lwm2mserver", 1⟩ 1700000000 250 .info
        [("message", .str "POST"), ("path", .str "\"] ep=\"\\"), ("tls", .bool true)]) = some {
      pri := 14
      secs := 1700000000
      millis := 250
      hostname := "gateway"
      appName := "lwm2mserver"
      pid := 1
      fields := [("path", "\"] ep=\"\\"), ("tls", "true")]
      message := "POST" } := by
  have allowed : wellNamed "gateway" "lwm2mserver" [("path", "\"] ep=\"\\"), ("tls", "true")] = true := by
    decide
  have true_ : toString true = "true" := rfl
  refine (entry_read ⟨"gateway", "lwm2mserver", 1⟩ .info (by decide) (by decide) (by simp) (by simp)
    (by simp)).trans ?_
  simp [isMessage, FieldValue.text, levelToSeverity, true_, allowed]

end Lwm2mServer.Syslog
