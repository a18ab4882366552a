import Mathlib.Algebra.Field.ZMod
import Mathlib.Algebra.Polynomial.Div
import Mathlib.Tactic.LinearCombination

/-! Cyclic redundancy checks. A word is read as a polynomial over the integers
mod 2, its bits the coefficients, and then exclusive or is addition and a step
of the register is multiplication by `X` up to a multiple of the generator. So
the register holds, after any message, the remainder of the message times
`X ^ w`. -/
namespace Library.Crc
open Polynomial

variable {w : Nat}

/-- The polynomial with the bits of a word as its coefficients. -/
noncomputable def toPoly (word : BitVec w) : (ZMod 2)[X] :=
  ∑ i ∈ Finset.range w, if word.getLsbD i then X ^ i else 0

/-- The message as one polynomial, first byte first. -/
noncomputable def message (bytes : List (BitVec 8)) : (ZMod 2)[X] :=
  bytes.foldl (fun p byte => p * X ^ 8 + toPoly byte) 0

/-- `X ^ w` and the lower terms of the generator. -/
noncomputable def generator (low : BitVec w) : (ZMod 2)[X] := X ^ w + toPoly low

/-- One step of the register. -/
def shift (low word : BitVec w) : BitVec w :=
  if word.msb then (word <<< 1) ^^^ low else word <<< 1

def shifts (low : BitVec w) : Nat → BitVec w → BitVec w
  | 0, word => word
  | n + 1, word => shifts low n (shift low word)

/-- A byte goes into the upper bits of the register. -/
def feed (low word : BitVec w) (byte : BitVec 8) : BitVec w :=
  shifts low 8 (word ^^^ (byte.setWidth w <<< (w - 8)))

/-- The register after a message, from zero. -/
def crc (low : BitVec w) (bytes : List (BitVec 8)) : BitVec w := bytes.foldl (feed low) 0

/-! ## Words as polynomials -/

theorem coeff_toPoly (word : BitVec w) (n : Nat) :
    (toPoly word).coeff n = if word.getLsbD n then 1 else 0 := by
  have term (i : Nat) : (if word.getLsbD i then (X : (ZMod 2)[X]) ^ i else 0).coeff n =
      if n = i then (if word.getLsbD n then 1 else 0) else 0 := by
    by_cases same : n = i
    · subst same
      split <;> simp
    · split <;> simp [coeff_X_pow, same]
  rw [toPoly, finsetSum_coeff, Finset.sum_congr rfl fun i _ => term i, Finset.sum_ite_eq]
  split
  · rfl
  · rename_i outside
    rw [BitVec.getLsbD_of_ge word n (by simpa using outside)]
    rfl

theorem degree_toPoly (word : BitVec w) : (toPoly word).degree < w := by
  rw [degree_lt_iff_coeff_zero]
  intro n above
  rw [coeff_toPoly, BitVec.getLsbD_of_ge word n above]
  rfl

@[simp] theorem toPoly_zero : toPoly (0#w) = 0 := by
  ext n
  simp [coeff_toPoly]

theorem toPoly_injective : Function.Injective (toPoly : BitVec w → (ZMod 2)[X]) := by
  intro word other same
  refine BitVec.eq_of_getLsbD_eq fun n _ => ?_
  have bit := congrArg (fun p => p.coeff n) same
  simp only [coeff_toPoly] at bit
  cases here : word.getLsbD n <;> cases there : other.getLsbD n <;> simp_all

theorem toPoly_xor (word other : BitVec w) : toPoly (word ^^^ other) = toPoly word + toPoly other := by
  ext n
  rw [coeff_add, coeff_toPoly, coeff_toPoly, coeff_toPoly, BitVec.getLsbD_xor]
  cases word.getLsbD n <;> cases other.getLsbD n <;> decide

/-- One bit is one term. -/
theorem toPoly_twoPow {i : Nat} (below : i < w) : toPoly (BitVec.twoPow w i) = X ^ i := by
  ext n
  rw [coeff_toPoly, BitVec.getLsbD_twoPow, coeff_X_pow]
  by_cases same : n = i
  · simp [same, below]
  · simp [same, Ne.symm same]

/-- Adding a polynomial twice is adding nothing. -/
theorem add_self (p : (ZMod 2)[X]) : p + p = 0 := by
  have two : (2 : (ZMod 2)[X]) = 0 := by
    rw [← C_ofNat]
    exact (congrArg C (by decide : (OfNat.ofNat 2 : ZMod 2) = 0)).trans C_0
  rw [← two_mul, two, zero_mul]

/-- A word moved up by one loses its first bit. -/
theorem toPoly_shiftLeft_one (positive : 0 < w) (word : BitVec w) :
    X * toPoly word = toPoly (word <<< 1) + if word.msb then X ^ w else 0 := by
  ext n
  have carry : (if word.msb then (X : (ZMod 2)[X]) ^ w else 0).coeff n =
      if word.msb ∧ n = w then 1 else 0 := by
    cases word.msb <;> simp [coeff_X_pow]
  rw [coeff_add, coeff_toPoly, carry, BitVec.getLsbD_shiftLeft]
  cases n with
  | zero =>
    have other : 0 ≠ w := Nat.ne_of_lt positive
    simp [other]
  | succ n =>
    rw [coeff_X_mul, coeff_toPoly]
    rcases Nat.lt_trichotomy (n + 1) w with inside | last | outside
    · have other : n + 1 ≠ w := Nat.ne_of_lt inside
      simp [inside, other]
    · have top : word.msb = word.getLsbD n := by
        rw [BitVec.msb_eq_getLsbD_last]
        congr 1
        omega
      simp [top, last]
    · have high : word.getLsbD n = false := BitVec.getLsbD_of_ge word n (by omega)
      have other : n + 1 ≠ w := Nat.ne_of_gt outside
      simp [high, other]

/-- A byte in the upper bits of a word. -/
theorem toPoly_byte (wide : 8 ≤ w) (byte : BitVec 8) :
    toPoly (byte.setWidth w <<< (w - 8)) = toPoly byte * X ^ (w - 8) := by
  ext n
  rw [coeff_toPoly, coeff_mul_X_pow', BitVec.getLsbD_shiftLeft, BitVec.getLsbD_setWidth, coeff_toPoly]
  by_cases low : n < w - 8
  · simp [low, Nat.not_le.mpr low]
  · by_cases inside : n < w
    · have short : n - (w - 8) < w := by omega
      simp [low, inside, short, Nat.not_lt.mp low]
    · have high : byte.getLsbD (n - (w - 8)) = false := BitVec.getLsbD_of_ge byte _ (by omega)
      simp [inside, high]

/-! ## The register -/

section
variable {low : BitVec w}

theorem monic_generator (low : BitVec w) : (generator low).Monic := monic_X_pow_add (degree_toPoly low)

theorem degree_generator (low : BitVec w) : (generator low).degree = w := by
  rw [generator, degree_add_eq_left_of_degree_lt] <;> rw [degree_X_pow]
  exact degree_toPoly low

/-- A step multiplies by `X`, and takes the generator off when its leading term
comes up. -/
theorem toPoly_shift (positive : 0 < w) (word : BitVec w) :
    toPoly (shift low word) = X * toPoly word + if word.msb then generator low else 0 := by
  rw [toPoly_shiftLeft_one positive, shift]
  split
  · rw [toPoly_xor, generator]
    linear_combination -(add_self (X ^ w : (ZMod 2)[X]))
  · simp

theorem generator_dvd_shifts (low : BitVec w) (positive : 0 < w) (n : Nat) (word : BitVec w) :
    generator low ∣ toPoly (shifts low n word) - toPoly word * X ^ n := by
  induction n generalizing word with
  | zero => simp [shifts]
  | succ n ih =>
    rw [shifts]
    have stepped : toPoly (shift low word) * X ^ n - toPoly word * X ^ (n + 1) =
        (if word.msb then generator low else 0) * X ^ n := by
      rw [toPoly_shift positive]
      ring
    have taken : generator low ∣ toPoly (shift low word) * X ^ n - toPoly word * X ^ (n + 1) := by
      rw [stepped]
      split
      · exact dvd_mul_right _ _
      · simp
    simpa using dvd_add (ih (shift low word)) taken

/-- What a register holds after more of a message. -/
theorem generator_dvd_feed (low : BitVec w) (wide : 8 ≤ w) (word : BitVec w) (byte : BitVec 8) :
    generator low ∣ toPoly (feed low word byte) - (toPoly word * X ^ 8 + toPoly byte * X ^ w) := by
  have shifted := generator_dvd_shifts low (by omega : 0 < w) 8
    (word ^^^ (byte.setWidth w <<< (w - 8)))
  have up : (X : (ZMod 2)[X]) ^ (w - 8) * X ^ 8 = X ^ w := by
    rw [← pow_add, Nat.sub_add_cancel wide]
  rw [toPoly_xor, toPoly_byte wide, add_mul, mul_assoc, up] at shifted
  exact shifted

theorem message_append (bytes : List (BitVec 8)) (byte : BitVec 8) :
    message (bytes ++ [byte]) = message bytes * X ^ 8 + toPoly byte := by
  rw [message, List.foldl_append]
  rfl

theorem generator_dvd_crc (wide : 8 ≤ w) (bytes : List (BitVec 8)) :
    generator low ∣ message bytes * X ^ w - toPoly (crc low bytes) := by
  induction bytes using List.reverseRecOn with
  | nil => simp [message, crc]
  | append_singleton bytes byte ih =>
    have fed := generator_dvd_feed low wide (crc low bytes) byte
    have whole : crc low (bytes ++ [byte]) = feed low (crc low bytes) byte := by
      rw [crc, List.foldl_append]
      rfl
    rw [whole, message_append]
    convert dvd_sub (dvd_mul_of_dvd_left ih (X ^ 8)) fed using 1
    ring

/-- **The register holds the remainder** of the message times `X ^ w`. -/
theorem toPoly_crc (wide : 8 ≤ w) (low : BitVec w) (bytes : List (BitVec 8)) :
    toPoly (crc low bytes) = (message bytes * X ^ w) %ₘ generator low := by
  have small : toPoly (crc low bytes) %ₘ generator low = toPoly (crc low bytes) := by
    rw [modByMonic_eq_self_iff (monic_generator low), degree_generator]
    exact degree_toPoly _
  rw [← small]
  exact (modByMonic_eq_of_dvd_sub (monic_generator low) (generator_dvd_crc wide bytes)).symm

/-- A word of sixteen bits and its two bytes. -/
theorem toPoly_bytes (word : BitVec 16) :
    toPoly word = toPoly ((word >>> 8).setWidth 8) * X ^ 8 + toPoly (word.setWidth 8) := by
  ext n
  rw [coeff_add, coeff_mul_X_pow', coeff_toPoly, coeff_toPoly, coeff_toPoly, BitVec.getLsbD_setWidth,
    BitVec.getLsbD_setWidth, BitVec.getLsbD_ushiftRight]
  by_cases upper : 8 ≤ n
  · have place : 8 + (n - 8) = n := Nat.add_sub_cancel' upper
    by_cases inside : n < 16
    · have short : n - 8 < 8 := by omega
      simp [upper, short, place, Nat.not_lt.mpr upper]
    · have high : word.getLsbD n = false := BitVec.getLsbD_of_ge word n (by omega)
      simp [upper, place, high]
  · simp [upper, Nat.not_le.mp upper]

theorem message_append_two (bytes : List (BitVec 8)) (word : BitVec 16) :
    message (bytes ++ [(word >>> 8).setWidth 8, word.setWidth 8]) =
      message bytes * X ^ 16 + toPoly word := by
  rw [List.append_cons, message_append, message_append, toPoly_bytes word]
  ring

/-- **A message followed by its own remainder has remainder zero.** -/
theorem crc_append_self (low : BitVec 16) (bytes : List (BitVec 8)) :
    crc low (bytes ++ [(crc low bytes >>> 8).setWidth 8, (crc low bytes).setWidth 8]) = 0#16 := by
  apply toPoly_injective
  have wide : 8 ≤ 16 := by decide
  rw [toPoly_crc wide, message_append_two, toPoly_zero, modByMonic_eq_zero_iff_dvd (monic_generator low)]
  refine dvd_mul_of_dvd_left ?_ _
  convert generator_dvd_crc wide bytes using 1
  linear_combination add_self (toPoly (crc low bytes))

end
end Library.Crc
