import Lwm2mServer.Persistence

/-! The address parser inverts the address printer: `Ipv6Addr::from_str` reads
back what `Ipv6Addr::to_string` writes, in the compressed and in the dotted
form too, and refuses the text of an IPv4 address. -/
namespace Lwm2mServer.AddressText

variable {radix n : Nat} {rest chars : List Char} {groups : List Nat}

/-! ## Digits -/

private theorem toDigit_digitChar_all :
    ∀ radix ∈ [10, 16], ∀ digit < radix, toDigit radix digit.digitChar = some digit := by decide

/-- The two radixes in use. -/
abbrev Radix (radix : Nat) : Prop := radix ∈ [10, 16]

private theorem one_lt_radix (known : Radix radix) : 1 < radix := by
  simp only [Radix, List.mem_cons, List.not_mem_nil, or_false] at known
  omega

theorem toDigit_toDigits (known : Radix radix) :
    ∀ c ∈ Nat.toDigits radix n, (toDigit radix c).isSome := by
  induction n using Nat.base_induction radix (one_lt_radix known) with
  | single m small =>
    intro c member
    rw [Nat.toDigits_of_lt_base small, List.mem_singleton] at member
    rw [member, toDigit_digitChar_all radix known m small]
    rfl
  | digit m k small positive ih =>
    intro c member
    rw [← Nat.toDigits_append_toDigits (one_lt_radix known) positive small, List.mem_append,
      Nat.toDigits_of_lt_base small, List.mem_singleton] at member
    rcases member with front | rfl
    · exact ih c front
    · rw [toDigit_digitChar_all radix known k small]
      rfl

/-- The value the digits are folded to. -/
theorem value_toDigits (known : Radix radix) :
    ((Nat.toDigits radix n).filterMap (toDigit radix)).foldl
      (fun acc digit => acc * radix + digit) 0 = n := by
  induction n using Nat.base_induction radix (one_lt_radix known) with
  | single m small =>
    rw [Nat.toDigits_of_lt_base small, List.filterMap_cons, toDigit_digitChar_all radix known m small]
    simp
  | digit m k small positive ih =>
    rw [← Nat.toDigits_append_toDigits (one_lt_radix known) positive small, List.filterMap_append,
      List.foldl_append, ih, Nat.toDigits_of_lt_base small, List.filterMap_cons,
      toDigit_digitChar_all radix known k small]
    simp [Nat.mul_comm]

/-- A number above zero has no leading zero. -/
theorem head_toDigits (known : Radix radix) (positive : 0 < n) :
    (Nat.toDigits radix n).head? ≠ some '0' := by
  induction n using Nat.base_induction radix (one_lt_radix known) with
  | single m small =>
    rw [Nat.toDigits_of_lt_base small]
    intro zero
    have digit := toDigit_digitChar_all radix known m small
    rw [Option.some.inj zero] at digit
    have none : toDigit radix '0' = some 0 := toDigit_digitChar_all radix known 0 (by omega)
    rw [none] at digit
    cases digit
    exact Nat.lt_irrefl 0 positive
  | digit m k small above ih =>
    rw [← Nat.toDigits_append_toDigits (one_lt_radix known) above small,
      List.head?_append_of_ne_nil _ Nat.toDigits_ne_nil]
    exact ih above

/-- What follows a number does not go on with a digit. -/
def NoDigit (radix : Nat) (rest : List Char) : Prop :=
  ∀ c ∈ rest.head?, toDigit radix c = none

theorem takeWhile_toDigits (known : Radix radix) (ends : NoDigit radix rest) :
    (Nat.toDigits radix n ++ rest).takeWhile (fun c => (toDigit radix c).isSome) =
      Nat.toDigits radix n := by
  rw [List.takeWhile_append_of_pos (toDigit_toDigits known)]
  cases rest with
  | nil => simp
  | cons c rest => simp [ends c rfl]

/-- **A number is read back**, whatever follows it. -/
theorem readNumber_toDigits {maxDigits bound : Nat} {zeroPrefix : Bool} (known : Radix radix)
    (small : n < bound) (fits : bound ≤ radix ^ maxDigits) (some_ : 0 < maxDigits)
    (ends : NoDigit radix rest) :
    readNumber radix maxDigits bound zeroPrefix (Nat.toDigits radix n ++ rest) = some (n, rest) := by
  have short : (Nat.toDigits radix n).length ≤ maxDigits :=
    (Nat.length_toDigits_le_iff (one_lt_radix known) some_).mpr (Nat.lt_of_lt_of_le small fits)
  have unpadded : ¬ ((Nat.toDigits radix n).head? = some '0' ∧ 1 < (Nat.toDigits radix n).length) := by
    rintro ⟨zero, long⟩
    rcases Nat.eq_zero_or_pos n with rfl | positive
    · simp at long
    · exact head_toDigits known positive zero
  have refused : ¬ (Nat.toDigits radix n = [] ∨ maxDigits < (Nat.toDigits radix n).length ∨
      bound ≤ n ∨ (zeroPrefix = false ∧
        (Nat.toDigits radix n).head? = some '0' ∧ 1 < (Nat.toDigits radix n).length)) := by
    rintro (empty | long | large | ⟨_, padded⟩)
    · exact Nat.toDigits_ne_nil empty
    · omega
    · omega
    · exact unpadded padded
  simp only [readNumber, takeWhile_toDigits known ends, value_toDigits known]
  rw [if_neg refused, List.drop_left]

/-! ## Dotted quads -/

theorem readNumber_suffix {maxDigits bound value : Nat} {zeroPrefix : Bool}
    (read : readNumber radix maxDigits bound zeroPrefix chars = some (value, rest)) :
    ∀ c ∈ rest, c ∈ chars := by
  simp only [readNumber] at read
  split at read
  · cases read
  · cases read
    intro c member
    exact List.mem_of_mem_drop member

/-- Four octets need a dot. -/
theorem readOctets_none (dotless : '.' ∉ chars) (left : Nat) :
    readOctets (left + 2) 0 chars = none := by
  rw [readOctets]
  cases first : readSeparator '.' 0 (readNumber 10 3 256 false) chars with
  | none => rfl
  | some read =>
    obtain ⟨octet, rest⟩ := read
    have inside := readNumber_suffix (first : readNumber 10 3 256 false chars = some (octet, rest))
    have second : readOctets (left + 1) 1 rest = none := by
      rw [readOctets]
      cases rest with
      | nil => rfl
      | cons c rest =>
        have other : c ≠ '.' := fun same => dotless (inside '.' (same ▸ List.mem_cons_self))
        simp [readSeparator, readGivenChar, other]
    simp [second]

private theorem noDigit_dot (rest : List Char) : NoDigit 10 ('.' :: rest) := by
  intro c member
  cases member
  decide

private theorem noDigit_nil : NoDigit radix [] := by
  intro c member
  cases member

private theorem readOctet {octet : Nat} (small : octet < 256) (ends : NoDigit 10 rest) :
    readNumber 10 3 256 false (Nat.toDigits 10 octet ++ rest) = some (octet, rest) :=
  readNumber_toDigits (by decide) small (by decide) (by decide) ends

/-- A dotted quad is read back. -/
theorem readOctets_quad {one two three four : Nat} (first : one < 256) (second : two < 256)
    (third : three < 256) (fourth : four < 256) :
    readOctets 4 0 (Nat.toDigits 10 one ++ '.' :: (Nat.toDigits 10 two ++ '.' ::
      (Nat.toDigits 10 three ++ '.' :: Nat.toDigits 10 four))) =
        some ([one, two, three, four], []) := by
  have last : readNumber 10 3 256 false (Nat.toDigits 10 four) = some (four, []) := by
    simpa using readOctet fourth noDigit_nil
  simp [readOctets, readSeparator, readGivenChar, readOctet first (noDigit_dot _),
    readOctet second (noDigit_dot _), readOctet third (noDigit_dot _), last]

/-! ## Groups -/

/-- The text of the groups from a position on: all but the first group of the
address stand behind a colon. -/
def textFrom : Nat → List Nat → List Char
  | _, [] => []
  | 0, group :: groups => Nat.toDigits 16 group ++ textFrom 1 groups
  | index + 1, group :: groups => ':' :: (Nat.toDigits 16 group ++ textFrom (index + 2) groups)

theorem textFrom_succ (index : Nat) (groups : List Nat) :
    textFrom (index + 1) groups = groups.flatMap fun group => ':' :: Nat.toDigits 16 group := by
  induction groups generalizing index with
  | nil => rfl
  | cons group rest ih => simp [textFrom, ih]

theorem groupsText_eq (groups : List Nat) : groupsText groups = textFrom 0 groups := by
  cases groups with
  | nil => rfl
  | cons group rest =>
    rw [textFrom, textFrom_succ, groupsText]
    induction rest generalizing group with
    | nil => simp
    | cons next rest ih =>
      rw [List.map_cons, List.map_cons, List.intercalate_cons_cons]
      have tail := ih next
      rw [List.map_cons] at tail
      rw [tail]
      simp

/-- What may follow the groups: the end of the text, or the two colons that
stand for the zeros left out. -/
inductive Ends : List Char → Prop where
  | text : Ends []
  | zeros (tail : List Char) : Ends (':' :: ':' :: tail)

private theorem noDigit_ends (ends : Ends rest) : NoDigit 16 rest := by
  cases ends with
  | text => exact noDigit_nil
  | zeros tail =>
    intro c member
    cases member
    decide

private theorem noDigit_textFrom (index : Nat) (ends : Ends rest) :
    NoDigit 16 (textFrom (index + 1) groups ++ rest) := by
  cases groups with
  | nil => exact noDigit_ends ends
  | cons group groups =>
    intro c member
    cases member
    decide

/-- Nothing is read where the groups end. -/
private theorem readGroups_ends (ends : Ends rest) (left index : Nat) (dotless : '.' ∉ rest) :
    readGroups left index rest = ([], false, rest) := by
  cases left with
  | zero => rfl
  | succ left =>
    have octets (chars : List Char) (inside : ∀ c ∈ chars, c ∈ rest) :
        readOctets 4 0 chars = none :=
      readOctets_none (fun dot => dotless (inside '.' dot)) 2
    cases ends with
    | text => cases index <;> simp [readGroups, readSeparator, readGivenChar, readNumber, octets]
    | zeros tail =>
      have colon : toDigit 16 ':' = none := by decide
      cases index with
      | zero => simp [readGroups, readSeparator, readNumber, octets, colon]
      | succ index =>
        have inner : readOctets 4 0 (':' :: tail) = none :=
          octets _ fun c member => List.mem_cons_of_mem _ member
        simp [readGroups, readSeparator, readGivenChar, readNumber, inner, colon]

/-- **The groups are read back**, up to where they end. -/
theorem readGroups_textFrom (left index : Nat) (ends : Ends rest) (fits : groups.length ≤ left)
    (small : ∀ group ∈ groups, group < 65536) (dotless : '.' ∉ textFrom index groups ++ rest) :
    readGroups left index (textFrom index groups ++ rest) = (groups, false, rest) := by
  induction groups generalizing left index with
  | nil => exact readGroups_ends ends left index (by simpa [textFrom] using dotless)
  | cons group groups ih =>
    obtain ⟨left, rfl⟩ : ∃ more, left = more + 1 := by
      rw [List.length_cons] at fits
      exact ⟨left - 1, by omega⟩
    have number : readNumber 16 4 65536 true
          (Nat.toDigits 16 group ++ (textFrom (index + 1) groups ++ rest)) =
        some (group, textFrom (index + 1) groups ++ rest) :=
      readNumber_toDigits (by decide) (small group List.mem_cons_self) (by decide) (by decide)
        (noDigit_textFrom index ends)
    have later := ih left (index + 1) (by simpa using fits)
      (fun other member => small other (List.mem_cons_of_mem group member))
    cases index with
    | zero =>
      simp only [textFrom, List.append_assoc] at dotless ⊢
      have octets := readOctets_none dotless 2
      have rest := later fun dot => dotless (List.mem_append_right _ dot)
      simp [readGroups, readSeparator, octets, number, rest]
    | succ index =>
      simp only [textFrom, List.cons_append, List.append_assoc] at dotless ⊢
      have octets := readOctets_none (fun dot => dotless (List.mem_cons_of_mem _ dot)) 2
      have rest := later fun dot => dotless (List.mem_cons_of_mem _ (List.mem_append_right _ dot))
      simp [readGroups, readSeparator, readGivenChar, octets, number, rest]

private theorem dotless_toDigits (n : Nat) : '.' ∉ Nat.toDigits 16 n := by
  intro dot
  have known : Radix 16 := by decide
  have digit := toDigit_toDigits known '.' dot
  exact absurd digit (by decide)

private theorem dotless_textFrom (index : Nat) (groups : List Nat) : '.' ∉ textFrom index groups := by
  induction groups generalizing index with
  | nil => simp [textFrom]
  | cons group groups ih => cases index <;> simp [textFrom, dotless_toDigits, ih]

/-! ## Zeros left out -/

/-- A run of zero groups. -/
def ZeroRun (groups : List Nat) (run : Nat × Nat) : Prop :=
  run.1 + run.2 ≤ groups.length ∧ ∀ i, run.1 ≤ i → i < run.1 + run.2 → groups[i]? = some 0

private theorem zeroRun_longest {all : List Nat} {index start len : Nat} {longest : Nat × Nat}
    (rest : List Nat) (at_ : all.drop index = rest) (here : len = 0 ∨ start + len = index)
    (current : ZeroRun all (start, len)) (best : ZeroRun all longest) :
    ZeroRun all (longestZeros index start len longest rest) := by
  induction rest generalizing index start len longest with
  | nil => exact best
  | cons group rest ih =>
    have inside : index < all.length := by
      rw [← List.drop_eq_nil_iff.not.trans Nat.not_le, at_]
      exact List.cons_ne_nil _ _
    have held : all[index]? = some group := by
      rw [← List.head?_drop, at_]
      rfl
    have next : all.drop (index + 1) = rest := by
      rw [← List.tail_drop, at_]
      rfl
    have empty : ZeroRun all (0, 0) := ⟨by simp, fun i _ below => absurd below (Nat.not_lt_zero i)⟩
    cases group with
    | succ group => exact ih next (Or.inl rfl) empty best
    | zero =>
      let start' := if len = 0 then index else start
      have adjoins : start' + len = index := by
        by_cases none : len = 0
        · simp [start', none]
        · simp only [start', none, if_false]
          exact here.resolve_left none
      have longer : ZeroRun all (start', len + 1) := by
        refine ⟨by simp only; omega, fun i above below => ?_⟩
        simp only at above below
        by_cases last : i = index
        · exact last ▸ held
        · have some_ : len ≠ 0 := by omega
          have same : start' = start := if_neg some_
          exact current.2 i (same ▸ above) (by simp only; omega)
      refine ih next (Or.inr ?_) longer ?_
      · exact (Nat.add_assoc start' len 1).symm.trans (congrArg (· + 1) adjoins)
      · split
        · exact longer
        · exact best

/-- What is left out is put back. -/
theorem restore_zeros {run : Nat × Nat} (zeros : ZeroRun groups run) :
    groups.take run.1 ++ List.replicate run.2 0 ++ groups.drop (run.1 + run.2) = groups := by
  have middle : (groups.drop run.1).take run.2 = List.replicate run.2 0 := by
    rw [List.eq_replicate_iff]
    refine ⟨by simp; have := zeros.1; omega, fun value member => ?_⟩
    obtain ⟨i, held⟩ := List.mem_iff_getElem?.mp member
    rw [List.getElem?_take] at held
    split at held
    · rw [List.getElem?_drop, zeros.2 _ (by omega) (by omega)] at held
      exact (Option.some.inj held).symm
    · cases held
  rw [← middle, List.append_assoc, ← List.drop_drop, List.take_append_drop, List.take_append_drop]

/-! ## Addresses -/

private theorem foldl_groups (n acc count : Nat) :
    ((List.range count).reverse.map fun place => n / 65536 ^ place % 65536).foldl
      (fun acc group => acc * 65536 + group) acc = acc * 65536 ^ count + n % 65536 ^ count := by
  induction count generalizing acc with
  | zero => simp [Nat.mod_one]
  | succ count ih =>
    rw [List.range_succ, List.reverse_append, List.reverse_singleton, List.singleton_append,
      List.map_cons, List.foldl_cons, ih, Nat.mod_pow_succ, Nat.pow_succ, Nat.add_mul, Nat.mul_assoc,
      Nat.mul_comm 65536, Nat.mul_comm (_ % 65536), Nat.add_assoc, Nat.add_comm (n % _)]

theorem ipv6OfGroups_ipv6Groups (ip : BitVec 128) : ipv6OfGroups (ipv6Groups ip) = ip := by
  apply BitVec.eq_of_toNat_eq
  have places : [7, 6, 5, 4, 3, 2, 1, 0] = (List.range 8).reverse := rfl
  have wide : 65536 ^ 8 = 2 ^ 128 := by decide
  rw [ipv6OfGroups, ipv6Groups, places, foldl_groups, wide, Nat.zero_mul, Nat.zero_add,
    BitVec.toNat_ofNat, Nat.mod_mod, Nat.mod_eq_of_lt ip.isLt]

private theorem length_ipv6Groups (ip : BitVec 128) : (ipv6Groups ip).length = 8 := rfl

private theorem ipv6Groups_small (ip : BitVec 128) : ∀ group ∈ ipv6Groups ip, group < 65536 := by
  intro group member
  simp only [ipv6Groups, List.mem_map] at member
  obtain ⟨place, _, rfl⟩ := member
  exact Nat.mod_lt _ (by decide)

/-- All eight groups written out. -/
private theorem parse_full (full : groups.length = 8) (small : ∀ group ∈ groups, group < 65536) :
    parseIpv6 (String.ofList (groupsText groups)) = some (ipv6OfGroups groups) := by
  have read := readGroups_textFrom 8 0 .text (Nat.le_of_eq full) small
    (by simpa using dotless_textFrom 0 groups)
  rw [List.append_nil] at read
  simp [parseIpv6, groupsText_eq, read, full]

/-- Two colons for the zeros between the groups of `head` and of `tail`. -/
private theorem parse_compressed {head tail : List Nat} (short : head.length + tail.length ≤ 6)
    (smallHead : ∀ group ∈ head, group < 65536) (smallTail : ∀ group ∈ tail, group < 65536) :
    parseIpv6 (String.ofList (groupsText head ++ [':', ':'] ++ groupsText tail)) =
      some (ipv6OfGroups (head ++ List.replicate (8 - head.length - tail.length) 0 ++ tail)) := by
  have dotlessTail : '.' ∉ textFrom 0 tail := dotless_textFrom 0 tail
  have readTail := readGroups_textFrom (7 - head.length) 0 .text (by omega)
    smallTail (by simpa using dotlessTail)
  have readHead := readGroups_textFrom 8 0 (.zeros (textFrom 0 tail))
    (by omega) smallHead (by simp [dotless_textFrom, dotlessTail])
  rw [List.append_nil] at readTail
  have some_ : head.length ≠ 8 := by omega
  simp [parseIpv6, groupsText_eq, readHead, readTail, readGivenChar, some_]

/-- The octet of an IPv4 address that starts at a bit. -/
def octet (ip shift : UInt32) : Nat := (ip >>> shift).toUInt8.toNat

private theorem octet_lt (ip shift : UInt32) : octet ip shift < 256 := (ip >>> shift).toUInt8.toNat_lt

theorem toList_ipv4Text (ip : UInt32) :
    (ipv4Text ip).toList = Nat.toDigits 10 (octet ip 24) ++ '.' :: (Nat.toDigits 10 (octet ip 16) ++
      '.' :: (Nat.toDigits 10 (octet ip 8) ++ '.' :: Nat.toDigits 10 (octet ip 0))) := by
  simp [ipv4Text, joinText, octet, List.intercalate_cons_cons]

theorem readOctets_ipv4Text (ip : UInt32) :
    readOctets 4 0 (ipv4Text ip).toList =
      some ([octet ip 24, octet ip 16, octet ip 8, octet ip 0], []) := by
  rw [toList_ipv4Text]
  exact readOctets_quad (octet_lt ip 24) (octet_lt ip 16) (octet_lt ip 8) (octet_lt ip 0)

/-- **An IPv4 address is no IPv6 address.** -/
theorem parseIpv6_ipv4Text (ip : UInt32) : parseIpv6 (ipv4Text ip) = none := by
  simp [parseIpv6, readGroups, readSeparator, readOctets_ipv4Text]

/-- The dotted form of an IPv4-mapped address. -/
private theorem parse_mapped (ip : UInt32) :
    parseIpv6 ("::ffff:" ++ ipv4Text ip) =
      some (ipv6OfGroups [0, 0, 0, 0, 0, 0xffff, octet ip 24 * 256 + octet ip 16,
        octet ip 8 * 256 + octet ip 0]) := by
  let quad := (ipv4Text ip).toList
  have colon : toDigit 16 ':' = none ∧ toDigit 10 ':' = none ∧ toDigit 10 'f' = none := by decide
  have text : ("::ffff:" ++ ipv4Text ip).toList =
      ':' :: ':' :: (Nat.toDigits 16 0xffff ++ ':' :: quad) := by
    rw [String.toList_append]
    rfl
  have noHead : readGroups 8 0 (':' :: ':' :: (Nat.toDigits 16 0xffff ++ ':' :: quad)) =
      ([], false, ':' :: ':' :: (Nat.toDigits 16 0xffff ++ ':' :: quad)) := by
    simp [readGroups, readSeparator, readOctets, readNumber, colon]
  have group : readNumber 16 4 65536 true (Nat.toDigits 16 0xffff ++ ':' :: quad) =
      some (0xffff, ':' :: quad) :=
    readNumber_toDigits (by decide) (by decide) (by decide) (by decide) fun c member => by
      cases member
      decide
  have noQuad : readOctets 4 0 (Nat.toDigits 16 0xffff ++ ':' :: quad) = none := by
    have digits : Nat.toDigits 16 0xffff = ['f', 'f', 'f', 'f'] := by decide
    simp [digits, readOctets, readSeparator, readNumber, colon]
  have tail : readGroups 7 0 (Nat.toDigits 16 0xffff ++ ':' :: quad) =
      ([0xffff, octet ip 24 * 256 + octet ip 16, octet ip 8 * 256 + octet ip 0], true, []) := by
    simp [readGroups, readSeparator, readGivenChar, noQuad, group, quad, readOctets_ipv4Text]
  simp only [parseIpv6, text, noHead]
  simp [readGivenChar, tail]

private theorem octet_ofNat (n : Nat) {shift : UInt32} (small : shift.toNat < 32) :
    octet (UInt32.ofNat n) shift = n % 2 ^ 32 / 2 ^ shift.toNat % 256 := by
  simp only [octet, UInt32.toNat_toUInt8, UInt32.toNat_shiftRight, UInt32.toNat_ofNat',
    Nat.mod_eq_of_lt small, Nat.shiftRight_eq_div_pow]

/-- The groups of an IPv4-mapped address. -/
private theorem mapped_groups {ip : BitVec 128} (mapped : (ipv6Groups ip).take 6 = [0, 0, 0, 0, 0, 0xffff]) :
    ipv6OfGroups [0, 0, 0, 0, 0, 0xffff,
      octet (UInt32.ofNat (ip.toNat % 2 ^ 32)) 24 * 256 + octet (UInt32.ofNat (ip.toNat % 2 ^ 32)) 16,
      octet (UInt32.ofNat (ip.toNat % 2 ^ 32)) 8 * 256 +
        octet (UInt32.ofNat (ip.toNat % 2 ^ 32)) 0] = ip := by
  have high (n : Nat) : octet (UInt32.ofNat (n % 2 ^ 32)) 24 * 256 +
      octet (UInt32.ofNat (n % 2 ^ 32)) 16 = n / 65536 ^ 1 % 65536 := by
    rw [octet_ofNat _ (by decide), octet_ofNat _ (by decide)]
    simp only [UInt32.reduceToNat]
    omega
  have low (n : Nat) : octet (UInt32.ofNat (n % 2 ^ 32)) 8 * 256 +
      octet (UInt32.ofNat (n % 2 ^ 32)) 0 = n / 65536 ^ 0 % 65536 := by
    rw [octet_ofNat _ (by decide), octet_ofNat _ (by decide)]
    simp only [UInt32.reduceToNat]
    omega
  have groups : (ipv6Groups ip).take 6 ++ [ip.toNat / 65536 ^ 1 % 65536,
      ip.toNat / 65536 ^ 0 % 65536] = ipv6Groups ip := rfl
  have read := ipv6OfGroups_ipv6Groups ip
  rw [← groups, mapped] at read
  rw [high, low]
  exact read

/-- **An address is read back from its text.** -/
theorem parseIpv6_ipv6Text (ip : BitVec 128) : parseIpv6 (ipv6Text ip) = some ip := by
  have whole := ipv6OfGroups_ipv6Groups ip
  simp only [ipv6Text]
  split
  · rename_i mapped
    rw [parse_mapped, mapped_groups mapped]
  · split
    · rename_i some_
      let run := longestZeros 0 0 0 (0, 0) (ipv6Groups ip)
      change 1 < run.2 at some_
      have empty : ZeroRun (ipv6Groups ip) (0, 0) :=
        ⟨by simp, fun i _ below => absurd below (Nat.not_lt_zero i)⟩
      have zeros : ZeroRun (ipv6Groups ip) run :=
        zeroRun_longest _ rfl (Or.inl rfl) empty empty
      have fits : run.1 + run.2 ≤ 8 := zeros.1
      have front : ((ipv6Groups ip).take run.1).length = run.1 := by
        rw [List.length_take, length_ipv6Groups]
        omega
      have back : ((ipv6Groups ip).drop (run.1 + run.2)).length = 8 - (run.1 + run.2) := by
        rw [List.length_drop, length_ipv6Groups]
      have left : 8 - run.1 - (8 - (run.1 + run.2)) = run.2 := by omega
      rw [parse_compressed (by rw [front, back]; omega)
        (fun group member => ipv6Groups_small ip group (List.mem_of_mem_take member))
        (fun group member => ipv6Groups_small ip group (List.mem_of_mem_drop member)),
        front, back, left, restore_zeros zeros, whole]
    · rw [parse_full (length_ipv6Groups ip) (ipv6Groups_small ip), whole]

end Lwm2mServer.AddressText
