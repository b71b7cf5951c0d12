import EvilResp.Cluster.Faults
import EvilResp.Library.Crc
import EvilResp.Library.Fields

/-!
# Cluster slots

The slot of a key: the checksum of its hashed part, a remainder of polynomials over the field
of two elements, reduced modulo the number of slots.

Main results:

- Theorem {lit}`hashedPart_iff`: the tag search finds the hashed part of the specification.
- Theorem {lit}`polyOf_crc16Xmodem`: the checksum is the remainder of the message times
  {lit}`X ^ 16`.
- Theorem {lit}`redisSlot_spec`: the slot is the slot of the specification, for every key.
-/

namespace EvilResp

open Library
open Library.Crc
open EvilResp.Resp
open scoped Polynomial

/-! ## The specification -/

/-- The byte that begins a hash tag. -/
def openingBrace : UInt8 := 123

/-- The byte that ends a hash tag. -/
def closingBrace : UInt8 := 125

/-- A key with bytes between its first opening brace and the first closing one behind it. -/
def HasTag (key tag : Bytes) : Prop :=
  tag ≠ [] ∧ ∃ before after, key = before ++ openingBrace :: (tag ++ closingBrace :: after) ∧
    openingBrace ∉ before ∧ closingBrace ∉ tag

/-- The hashed part of a key is its tag, or all of it when it has none. -/
inductive HashedPart (key : Bytes) : Bytes → Prop where
  | tag {tag : Bytes} (htag : HasTag key tag) : HashedPart key tag
  | whole (hnone : ∀ tag, ¬ HasTag key tag) : HashedPart key key

/-- The polynomial of a byte string, its first bit the highest coefficient. -/
noncomputable def bytesPoly (bytes : Bytes) : (ZMod 2)[X] :=
  messagePoly (bytes.map UInt8.toBitVec)

/-- The remainder of the message times {lit}`X ^ 16`. -/
def IsCrc16 (bytes : Bytes) (crc : UInt16) : Prop :=
  polyOf crc.toBitVec =
    (bytesPoly bytes * Polynomial.X ^ 16) %ₘ
      (Polynomial.X ^ 16 + Polynomial.X ^ 12 + Polynomial.X ^ 5 + 1)

/-- The slot that the specification gives a key. -/
def ClusterSlot (key : Bytes) (slot : Int) : Prop :=
  ∃ part crc, HashedPart key part ∧ IsCrc16 part crc ∧ slot = (crc.toNat % 16384 : Nat)

/-! ## The hashed part -/

/-- A key has one tag at most. -/
theorem HasTag.unique {key tag other : Bytes} (htag : HasTag key tag)
    (hother : HasTag key other) : tag = other := by
  obtain ⟨_, before, after, hkey, hbefore, hclose⟩ := htag
  obtain ⟨_, before', after', hkey', hbefore', hclose'⟩ := hother
  obtain ⟨_, hrest⟩ := first_split_unique hbefore hbefore' (hkey.symm.trans hkey')
  exact (first_split_unique hclose hclose' hrest).1

/-- The tag search returns the hashed part. -/
theorem hashedPart_keyTag (key : Bytes) : HashedPart key (keyTag key) := by
  unfold keyTag
  rcases exists_first_split openingBrace key with ⟨hdrop, hopen⟩ | ⟨rest, hdrop, hkey, hopen⟩
  · rw [show key.dropWhile (· ≠ 123) = [] from hdrop]
    apply HashedPart.whole
    rintro tag ⟨_, before, after, rfl, _⟩
    simp at hopen
  · rw [show key.dropWhile (· ≠ 123) = 123 :: rest from hdrop]
    simp only [List.span_eq_takeWhile_dropWhile]
    rcases exists_first_split closingBrace rest with
      ⟨hnone, hclose⟩ | ⟨after, hsome, hrest, hclose⟩
    · rw [if_pos (.inl hnone)]
      apply HashedPart.whole
      rintro tag ⟨_, before, after, hkey', hbefore, _⟩
      obtain ⟨_, hrest⟩ := first_split_unique hopen hbefore (hkey.symm.trans hkey')
      rw [hrest] at hclose
      simp at hclose
    · by_cases hempty : rest.takeWhile (· ≠ 125) = []
      · rw [if_pos (.inr hempty)]
        apply HashedPart.whole
        rintro tag ⟨hne, before, after', hkey', hbefore, hclose'⟩
        obtain ⟨_, hrest'⟩ := first_split_unique hopen hbefore (hkey.symm.trans hkey')
        have := (first_split_unique hclose hclose' (hrest.symm.trans hrest')).1
        exact hne (this.symm.trans hempty)
      · have hafter : rest.dropWhile (· ≠ 125) ≠ [] := by
          rw [show rest.dropWhile (· ≠ 125) = 125 :: after from hsome]
          exact List.cons_ne_nil _ _
        rw [if_neg (not_or.mpr ⟨hafter, hempty⟩)]
        apply HashedPart.tag
        exact ⟨hempty, _, after, hkey.trans (congrArg (_ ++ openingBrace :: ·) hrest), hopen, hclose⟩

theorem HashedPart.unique {key part other : Bytes} (hpart : HashedPart key part)
    (hother : HashedPart key other) : part = other := by
  cases hpart with
  | tag htag =>
      cases hother with
      | tag htag' => exact htag.unique htag'
      | whole hnone => exact absurd htag (hnone _)
  | whole hnone =>
      cases hother with
      | tag htag => exact absurd htag (hnone _)
      | whole _ => rfl

theorem hashedPart_iff {key part : Bytes} : HashedPart key part ↔ part = keyTag key := by
  constructor
  · intro h
    exact h.unique (hashedPart_keyTag key)
  · intro h
    rw [h]
    exact hashedPart_keyTag key

theorem keyTag_of_hasTag {key tag : Bytes} (h : HasTag key tag) : keyTag key = tag :=
  (hashedPart_iff.mp (.tag h)).symm

/-! ## The checksum -/

/-- The bits of the divisor below {lit}`X ^ 16`. -/
def crcPolynomial : BitVec 16 := 0x1021

theorem divisor_crcPolynomial :
    divisor crcPolynomial =
      Polynomial.X ^ 16 + Polynomial.X ^ 12 + Polynomial.X ^ 5 + 1 := by
  have hlow : polyOf crcPolynomial = Polynomial.X ^ 12 + Polynomial.X ^ 5 + 1 := by
    rw [polyOf, show (Finset.range 16).filter (fun i => crcPolynomial.getLsbD i = true) =
      {0, 5, 12} by decide]
    rw [Finset.sum_insert (by decide), Finset.sum_pair (by decide)]
    ring
  rw [divisor, hlow]
  ring

theorem toBitVec_crcBit (crc : UInt16) :
    (crcBit crc).toBitVec = shiftStep crcPolynomial crc.toBitVec := by
  have hbit : (crc &&& 0x8000 ≠ 0) ↔ crc.toBitVec.msb = true := by
    rw [Ne, ← UInt16.toBitVec_inj, UInt16.toBitVec_and, BitVec.msb_eq_getLsbD_last]
    rw [show (0x8000 : UInt16).toBitVec = BitVec.twoPow 16 15 by decide, BitVec.and_twoPow]
    cases crc.toBitVec.getLsbD (16 - 1) <;> decide
  unfold crcBit shiftStep
  by_cases h : crc.toBitVec.msb = true
  · rw [if_pos (hbit.mpr h), if_pos h]
    rfl
  · rw [if_neg (fun hne => h (hbit.mp hne)), if_neg h]
    rfl

theorem toBitVec_crcByte (crc : UInt16) (byte : UInt8) :
    (crcByte crc byte).toBitVec = byteStep crcPolynomial crc.toBitVec byte.toBitVec := by
  have hrun (n : Nat) (start : UInt16) : (Nat.repeat crcBit n start).toBitVec =
      Nat.repeat (shiftStep crcPolynomial) n start.toBitVec := by
    induction n with
    | zero => rfl
    | succ n ih => rw [Nat.repeat, toBitVec_crcBit, ih, Nat.repeat]
  rw [crcByte, hrun, byteStep]
  rfl

theorem toBitVec_crc16Xmodem (bytes : Bytes) :
    (crc16Xmodem bytes).toBitVec = checksum crcPolynomial 0 (bytes.map UInt8.toBitVec) := by
  rw [crc16Xmodem, checksum, List.foldl_map]
  exact (List.foldl_hom UInt16.toBitVec fun crc byte => (toBitVec_crcByte crc byte).symm).symm

/-- The checksum leaves the remainder of the message times {lit}`X ^ 16`. -/
theorem polyOf_crc16Xmodem (bytes : Bytes) :
    IsCrc16 bytes (crc16Xmodem bytes) := by
  rw [IsCrc16, toBitVec_crc16Xmodem, polyOf_checksum crcPolynomial _ (by decide),
    divisor_crcPolynomial, mul_comm]
  rfl

theorem isCrc16_iff {bytes : Bytes} {crc : UInt16} :
    IsCrc16 bytes crc ↔ crc = crc16Xmodem bytes := by
  constructor
  · intro h
    apply UInt16.toBitVec_inj.mp
    exact polyOf_injective (h.trans (polyOf_crc16Xmodem bytes).symm)
  · intro h
    rw [h]
    exact polyOf_crc16Xmodem bytes

/-! ## The slot -/

/-- The slot of a key is the one of the specification, it is in range, and keys with one tag
share it. -/
theorem redisSlot_spec (key : Bytes) :
    (∀ slot, ClusterSlot key slot ↔ redisSlot key = slot) ∧
      (0 ≤ redisSlot key ∧ redisSlot key ≤ 16383) ∧
      ∀ tag other, HasTag key tag → HasTag other tag → redisSlot key = redisSlot other := by
  refine ⟨fun slot => ?_, ?_, fun tag other htag hother => ?_⟩
  · constructor
    · rintro ⟨part, crc, hpart, hcrc, rfl⟩
      rw [hashedPart_iff.mp hpart] at hcrc
      rw [isCrc16_iff.mp hcrc]
      rfl
    · rintro rfl
      exact ⟨keyTag key, _, hashedPart_keyTag key, polyOf_crc16Xmodem _, rfl⟩
  · have := redisSlot_range key
    unfold clusterSlotCount at this
    omega
  · rw [redisSlot, redisSlot, keyTag_of_hasTag htag, keyTag_of_hasTag hother]

end EvilResp
