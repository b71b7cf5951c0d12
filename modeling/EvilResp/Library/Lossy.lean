import EvilResp.Library.Text
import Mathlib.Data.List.TakeWhile

/-!
# Lossy decoding of valid text

The lossy decoder replaces ill-formed runs only: what a text encodes to is read back as
the text, whatever follows it.

Main results:

- Theorem {lit}`fromUtf8Lossy_asBytes`: lossy decoding inverts encoding.
-/

namespace Library

/-- Bytes that are covered are passed over. -/
theorem lossyChars_skip (covered rest : Bytes) :
    lossyChars covered.length (covered ++ rest) = lossyChars 0 rest := by
  induction covered with
  | nil => rfl
  | cons byte covered ih => exact ih

/-- A complete sequence is decoded to its scalar value. -/
theorem lossyChars_sequence (first second : UInt8) (more rest : Bytes)
    (hwidth : utf8Width first = more.length + 2) (hsecond : secondByteFits first second = true)
    (hmore : ∀ b ∈ more, isContinuation b = true) :
    lossyChars 0 (first :: second :: more ++ rest) =
      utf8Scalar (first :: second :: more) :: lossyChars 0 rest := by
  have htake : ((more ++ rest).take more.length).takeWhile isContinuation = more := by
    rw [List.take_left, List.takeWhile_eq_self_iff]
    exact hmore
  have hlength : continuationLength first (utf8Width first) (second :: (more ++ rest)) =
      more.length + 1 := by
    have hwide : 2 ≤ utf8Width first ∧ secondByteFits first second = true :=
      ⟨by omega, hsecond⟩
    have hsub : utf8Width first - 2 = more.length := by omega
    rw [continuationLength, if_pos hwide, hsub, htake]
    omega
  have hwhole : (first :: second :: (more ++ rest)).take (utf8Width first) =
      first :: second :: more := by
    rw [hwidth]
    simp
  have hskip := lossyChars_skip (second :: more) rest
  have hpresent : 1 + (more.length + 1) = utf8Width first := by omega
  simp only [List.cons_append, lossyChars, hlength, hpresent, if_true, hwhole]
  rw [List.cons.injEq]
  refine ⟨rfl, ?_⟩
  have hcovered : utf8Width first - 1 = (second :: more).length := by
    rw [hwidth]
    rfl
  rw [hcovered]
  exact hskip

/-! ## The sequences of the encoding -/

/-- The lower six bits make a continuation byte. -/
theorem isContinuation_ofNat (n : Nat) : isContinuation (UInt8.ofNat (n % 64 + 0x80)) = true := by
  simp only [isContinuation, UInt8.le_iff_toNat_le, UInt8.toNat_ofNat']
  simp
  omega

/-- A number below 256 fits a byte. -/
theorem toNat_ofNat_of_lt (n : Nat) (h : n < 256) : (UInt8.ofNat n).toNat = n := by
  rw [UInt8.toNat_ofNat']
  exact Nat.mod_eq_of_lt h

/-- The width that a first byte announces, in numbers. -/
theorem utf8Width_toNat (b : UInt8) : utf8Width b =
    if b.toNat ≤ 0x7f then 1
    else if 0xc2 ≤ b.toNat ∧ b.toNat ≤ 0xdf then 2
    else if 0xe0 ≤ b.toNat ∧ b.toNat ≤ 0xef then 3
    else if 0xf0 ≤ b.toNat ∧ b.toNat ≤ 0xf4 then 4
    else 0 := by
  simp only [utf8Width, UInt8.le_iff_toNat_le]
  rfl

/-- The second bytes that a first one allows, in numbers. -/
theorem secondByteFits_toNat {first second : UInt8} (hlow : 0x80 ≤ second.toNat)
    (hhigh : second.toNat ≤ 0xbf) (he0 : first.toNat = 0xe0 → 0xa0 ≤ second.toNat)
    (hed : first.toNat = 0xed → second.toNat ≤ 0x9f)
    (hf0 : first.toNat = 0xf0 → 0x90 ≤ second.toNat)
    (hf4 : first.toNat = 0xf4 → second.toNat ≤ 0x8f) : secondByteFits first second = true := by
  have heq : ∀ b : UInt8, first = b → first.toNat = b.toNat := fun b h => h ▸ rfl
  unfold secondByteFits
  split
  · rename_i h
    have := he0 (heq _ h)
    simpa [UInt8.le_iff_toNat_le] using ⟨this, hhigh⟩
  · split
    · rename_i h
      have := hed (heq _ h)
      simpa [UInt8.le_iff_toNat_le] using ⟨hlow, this⟩
    · split
      · rename_i h
        have := hf0 (heq _ h)
        simpa [UInt8.le_iff_toNat_le] using ⟨this, hhigh⟩
      · split
        · rename_i h
          have := hf4 (heq _ h)
          simpa [UInt8.le_iff_toNat_le] using ⟨hlow, this⟩
        · simpa [isContinuation, UInt8.le_iff_toNat_le] using ⟨hlow, hhigh⟩

/-- The sequence of one character is decoded to that character. -/
theorem lossyChars_utf8EncodeChar (c : Char) (rest : Bytes) :
    lossyChars 0 (String.utf8EncodeChar c ++ rest) = c :: lossyChars 0 rest := by
  have hvalid : c.toNat < 0xd800 ∨ (0xdfff < c.toNat ∧ c.toNat < 0x110000) := c.valid
  have hval : c.val.toNat = c.toNat := rfl
  have hc : ∀ n, n = c.toNat → Char.ofNat n = c := fun n h => h ▸ Char.ofNat_toNat c
  have hmod : ∀ n, (n % 64 + 0x80) < 256 := fun n => by omega
  simp only [String.utf8EncodeChar, hval]
  split
  · rename_i h1
    have hbyte : (UInt8.ofNat c.toNat).toNat = c.toNat := toNat_ofNat_of_lt _ (by omega)
    have hle : UInt8.ofNat c.toNat ≤ 127 := by
      rw [UInt8.le_iff_toNat_le, hbyte]
      exact h1
    rw [List.singleton_append, lossyChars_ascii hle, hc _ hbyte]
  · rename_i h1
    split
    · rename_i h2
      have hfirst := toNat_ofNat_of_lt (c.toNat / 64 % 0x20 + 0xc0) (by omega)
      have hsecond := toNat_ofNat_of_lt _ (hmod c.toNat)
      have hwidth : utf8Width (UInt8.ofNat (c.toNat / 64 % 0x20 + 0xc0)) = 2 := by
        rw [utf8Width_toNat, hfirst, if_neg (by omega), if_pos (by omega)]
      have hfits : secondByteFits (UInt8.ofNat (c.toNat / 64 % 0x20 + 0xc0))
          (UInt8.ofNat (c.toNat % 64 + 0x80)) = true := by
        apply secondByteFits_toNat <;> omega
      refine (lossyChars_sequence _ _ [] rest hwidth hfits (by simp)).trans ?_
      rw [utf8Scalar, hfirst, hsecond, hc _ (by omega)]
    · rename_i h2
      split
      · rename_i h3
        have hfirst := toNat_ofNat_of_lt (c.toNat / 4096 % 0x10 + 0xe0) (by omega)
        have hsecond := toNat_ofNat_of_lt _ (hmod (c.toNat / 64))
        have hthird := toNat_ofNat_of_lt _ (hmod c.toNat)
        have hwidth : utf8Width (UInt8.ofNat (c.toNat / 4096 % 0x10 + 0xe0)) = 3 := by
          rw [utf8Width_toNat, hfirst, if_neg (by omega), if_neg (by omega), if_pos (by omega)]
        have hfits : secondByteFits (UInt8.ofNat (c.toNat / 4096 % 0x10 + 0xe0))
            (UInt8.ofNat (c.toNat / 64 % 64 + 0x80)) = true := by
          apply secondByteFits_toNat <;> omega
        have hmore : ∀ b ∈ [UInt8.ofNat (c.toNat % 64 + 0x80)], isContinuation b = true :=
          List.forall_mem_singleton.mpr (isContinuation_ofNat _)
        refine (lossyChars_sequence _ _ _ rest hwidth hfits hmore).trans ?_
        rw [utf8Scalar, hfirst, hsecond, hthird, hc _ (by omega)]
      · rename_i h3
        have hfirst := toNat_ofNat_of_lt (c.toNat / 262144 % 0x08 + 0xf0) (by omega)
        have hsecond := toNat_ofNat_of_lt _ (hmod (c.toNat / 4096))
        have hthird := toNat_ofNat_of_lt _ (hmod (c.toNat / 64))
        have hfourth := toNat_ofNat_of_lt _ (hmod c.toNat)
        have hwidth : utf8Width (UInt8.ofNat (c.toNat / 262144 % 0x08 + 0xf0)) = 4 := by
          rw [utf8Width_toNat, hfirst, if_neg (by omega), if_neg (by omega), if_neg (by omega),
            if_pos (by omega)]
        have hfits : secondByteFits (UInt8.ofNat (c.toNat / 262144 % 0x08 + 0xf0))
            (UInt8.ofNat (c.toNat / 4096 % 64 + 0x80)) = true := by
          apply secondByteFits_toNat <;> omega
        have hmore : ∀ b ∈ [UInt8.ofNat (c.toNat / 64 % 64 + 0x80),
            UInt8.ofNat (c.toNat % 64 + 0x80)], isContinuation b = true :=
          List.forall_mem_cons.mpr ⟨isContinuation_ofNat _,
            List.forall_mem_singleton.mpr (isContinuation_ofNat _)⟩
        refine (lossyChars_sequence _ _ _ rest hwidth hfits hmore).trans ?_
        rw [utf8Scalar, hfirst, hsecond, hthird, hfourth, hc _ (by omega)]

/-- A text in front is decoded to itself. -/
theorem lossyChars_append (s : String) (rest : Bytes) :
    lossyChars 0 (asBytes s ++ rest) = s.toList ++ lossyChars 0 rest := by
  rw [asBytes_eq_flatMap]
  induction s.toList with
  | nil => rfl
  | cons c cs ih => rw [List.flatMap_cons, List.append_assoc, lossyChars_utf8EncodeChar, ih]; rfl

/-- Lossy decoding inverts encoding. -/
@[simp] theorem fromUtf8Lossy_asBytes (s : String) : fromUtf8Lossy (asBytes s) = s := by
  have h := lossyChars_append s []
  rw [List.append_nil] at h
  rw [fromUtf8Lossy, h]
  simp [lossyChars]

end Library
