import Mathlib.Algebra.Polynomial.Div
import Mathlib.Algebra.Field.ZMod
import Mathlib.Tactic.LinearCombination

/-!
# Cyclic redundancy checks

A word is read as a polynomial over the field of two elements, its bit {lit}`i` the
coefficient of {lit}`X ^ i`.  The shift register that goes through a message bit by bit, the
highest first, then computes the remainder of a polynomial division.

Main results:

- Theorem {lit}`polyOf_shiftStep`: one step of the register multiplies by {lit}`X` and
  reduces.
- Theorem {lit}`polyOf_byteStep`: eight of them take in a byte.
- Theorem {lit}`polyOf_checksum`: a whole message leaves the remainder of the message times
  {lit}`X ^ w`.
- Theorem {lit}`polyOf_injective`: that remainder is the remainder of one word only.
-/

namespace Library.Crc

open Polynomial

variable {w : Nat}

/-! ## Words as polynomials -/

/-- The sum of the powers whose bits are set in a word. -/
noncomputable def polyOf (word : BitVec w) : (ZMod 2)[X] :=
  ∑ i ∈ Finset.range w with word.getLsbD i, X ^ i

theorem coeff_polyOf (word : BitVec w) (i : Nat) :
    (polyOf word).coeff i = if word.getLsbD i then 1 else 0 := by
  simp only [polyOf, finsetSum_coeff, coeff_X_pow, Finset.sum_ite_eq, Finset.mem_filter,
    Finset.mem_range]
  by_cases hi : i < w
  · simp [hi]
  · simp [hi, BitVec.getLsbD_of_ge word i (by omega)]

theorem degree_polyOf_lt (word : BitVec w) : (polyOf word).degree < w := by
  rw [degree_lt_iff_coeff_zero]
  intro i hi
  rw [coeff_polyOf, BitVec.getLsbD_of_ge word i hi]
  rfl

/-- Exclusive or adds the polynomials. -/
theorem polyOf_xor (a b : BitVec w) : polyOf (a ^^^ b) = polyOf a + polyOf b := by
  ext i
  rw [coeff_add, coeff_polyOf, coeff_polyOf, coeff_polyOf, BitVec.getLsbD_xor]
  cases a.getLsbD i <;> cases b.getLsbD i <;> decide

theorem polyOf_injective : Function.Injective (polyOf (w := w)) := by
  intro a b h
  apply BitVec.eq_of_getLsbD_eq
  intro i _
  have hcoeff := congrArg (fun p => coeff p i) h
  simp only [coeff_polyOf] at hcoeff
  revert hcoeff
  cases a.getLsbD i <;> cases b.getLsbD i <;> decide

/-- A shift multiplies by {lit}`X` and loses the highest bit. -/
theorem polyOf_shiftLeft_one (word : BitVec w) :
    polyOf (word <<< 1) + (if word.msb then X ^ w else 0) = X * polyOf word := by
  ext i
  rw [coeff_add, coeff_polyOf, BitVec.getLsbD_shiftLeft, apply_ite (coeff · i), coeff_X_pow,
    coeff_zero]
  cases i with
  | zero =>
      rw [coeff_X_mul_zero]
      cases w with
      | zero => simp [BitVec.of_length_zero]
      | succ w => simp
  | succ i =>
      rw [coeff_X_mul, coeff_polyOf, BitVec.msb_eq_getLsbD_last]
      rcases lt_trichotomy (i + 1) w with hlt | rfl | hgt
      · simp [hlt, hlt.ne]
      · simp
      · have hi : word.getLsbD i = false := BitVec.getLsbD_of_ge word i (by omega)
        simp [hi, hgt.ne', Nat.not_lt.mpr hgt.le]

/-- A narrow word in the high bits of a wide one. -/
theorem polyOf_high {b : Nat} (word : BitVec b) (hb : b ≤ w) :
    polyOf (word.setWidth w <<< (w - b)) = X ^ (w - b) * polyOf word := by
  ext i
  rw [coeff_polyOf, coeff_X_pow_mul', coeff_polyOf, BitVec.getLsbD_shiftLeft,
    BitVec.getLsbD_setWidth]
  by_cases hi : w - b ≤ i
  · by_cases hw : i < w
    · have : i - (w - b) < w := by omega
      simp [hi, hw, this, Nat.not_lt.mpr hi]
    · have : word.getLsbD (i - (w - b)) = false := BitVec.getLsbD_of_ge word _ (by omega)
      simp [hi, hw, this]
  · simp [hi, Nat.lt_of_not_le hi]

/-! ## The register -/

/-- The divisor whose bits below {lit}`X ^ w` are given by a word. -/
noncomputable def divisor (low : BitVec w) : (ZMod 2)[X] :=
  X ^ w + polyOf low

theorem divisor_monic (low : BitVec w) : (divisor low).Monic :=
  monic_X_pow_add (degree_polyOf_lt low)

theorem degree_divisor (low : BitVec w) : (divisor low).degree = w := by
  rw [divisor, degree_add_eq_left_of_degree_lt, degree_X_pow]
  rw [degree_X_pow]
  exact degree_polyOf_lt low

theorem polyOf_mod (low word : BitVec w) : polyOf word %ₘ divisor low = polyOf word := by
  rw [modByMonic_eq_self_iff (divisor_monic low), degree_divisor]
  exact degree_polyOf_lt word

/-- Shift the register by one bit, and subtract the divisor when a bit falls out. -/
def shiftStep (low crc : BitVec w) : BitVec w :=
  if crc.msb then (crc <<< 1) ^^^ low else crc <<< 1

/-- One step multiplies by {lit}`X` and reduces. -/
theorem polyOf_shiftStep (low crc : BitVec w) :
    polyOf (shiftStep low crc) = (X * polyOf crc) %ₘ divisor low := by
  have hshift := polyOf_shiftLeft_one crc
  symm
  refine (div_modByMonic_unique (if crc.msb then 1 else 0) _ (divisor_monic low) ⟨?_, ?_⟩).2
  · -- the divisor goes in once when the highest bit falls out, and not at all otherwise
    rw [← hshift, shiftStep]
    split
    · have htwo : polyOf low + polyOf low = 0 := CharTwo.add_self_eq_zero _
      rw [polyOf_xor, divisor]
      linear_combination htwo
    · simp
  · rw [degree_divisor]
    exact degree_polyOf_lt _

/-- A factor may be reduced first. -/
theorem mul_mod_right (p q : (ZMod 2)[X]) (low : BitVec w) :
    (p * (q %ₘ divisor low)) %ₘ divisor low = (p * q) %ₘ divisor low := by
  apply modByMonic_eq_of_dvd_sub (divisor_monic low)
  rw [← mul_sub]
  exact (dvd_modByMonic_sub q (divisor low)).mul_left p

/-- A run of steps multiplies by a power of {lit}`X`. -/
theorem polyOf_shiftRun (low crc : BitVec w) (n : Nat) :
    polyOf (Nat.repeat (shiftStep low) n crc) = (X ^ n * polyOf crc) %ₘ divisor low := by
  induction n with
  | zero => rw [Nat.repeat, pow_zero, one_mul, polyOf_mod]
  | succ n ih => rw [Nat.repeat, polyOf_shiftStep, ih, mul_mod_right, ← mul_assoc, ← pow_succ']

/-- Take in one byte of {lit}`b` bits. -/
def byteStep {b : Nat} (low crc : BitVec w) (byte : BitVec b) : BitVec w :=
  Nat.repeat (shiftStep low) b (crc ^^^ (byte.setWidth w <<< (w - b)))

theorem polyOf_byteStep {b : Nat} (low crc : BitVec w) (byte : BitVec b) (hb : b ≤ w) :
    polyOf (byteStep low crc byte) =
      (X ^ b * polyOf crc + X ^ w * polyOf byte) %ₘ divisor low := by
  rw [byteStep, polyOf_shiftRun, polyOf_xor, polyOf_high byte hb, mul_add, ← mul_assoc, ← pow_add,
    Nat.add_sub_cancel' hb]

/-! ## Messages -/

/-- The polynomial of a message, whose first bit is the highest coefficient. -/
noncomputable def messagePoly {b : Nat} (bytes : List (BitVec b)) : (ZMod 2)[X] :=
  bytes.foldl (fun p byte => X ^ b * p + polyOf byte) 0

/-- Take in a message. -/
def checksum {b : Nat} (low crc : BitVec w) (bytes : List (BitVec b)) : BitVec w :=
  bytes.foldl (byteStep low) crc

/-- A register that holds the remainder of what was read keeps holding it. -/
theorem polyOf_checksum_from {b : Nat} (low crc : BitVec w) (bytes : List (BitVec b))
    (hb : b ≤ w) (p : (ZMod 2)[X]) (hcrc : polyOf crc = (X ^ w * p) %ₘ divisor low) :
    polyOf (checksum low crc bytes) =
      (X ^ w * bytes.foldl (fun p byte => X ^ b * p + polyOf byte) p) %ₘ divisor low := by
  induction bytes generalizing crc p with
  | nil => exact hcrc
  | cons byte bytes ih =>
      apply ih
      calc polyOf (byteStep low crc byte)
          = (X ^ b * ((X ^ w * p) %ₘ divisor low) + X ^ w * polyOf byte) %ₘ divisor low := by
            rw [polyOf_byteStep low crc byte hb, hcrc]
        _ = (X ^ b * (X ^ w * p) + X ^ w * polyOf byte) %ₘ divisor low := by
            rw [add_modByMonic, mul_mod_right, ← add_modByMonic]
        _ = (X ^ w * (X ^ b * p + polyOf byte)) %ₘ divisor low := by
            congr 1
            ring

/-- A register that starts empty holds the remainder of the message times {lit}`X ^ w`. -/
theorem polyOf_checksum {b : Nat} (low : BitVec w) (bytes : List (BitVec b)) (hb : b ≤ w) :
    polyOf (checksum low 0 bytes) = (X ^ w * messagePoly bytes) %ₘ divisor low := by
  apply polyOf_checksum_from low 0 bytes hb
  have hzero : polyOf (0 : BitVec w) = 0 := by
    ext i
    simp [coeff_polyOf]
  rw [hzero, mul_zero, zero_modByMonic]

end Library.Crc
