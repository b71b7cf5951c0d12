import EvilResp.Library.Fields
import EvilResp.Library.Float64
import EvilResp.Library.Numeric

/-!
# Printed values

A value printed with decimal places is read back as the integer that its digits spell, divided
by a power of ten.  Rounding to that integer keeps a value below every whole bound, so values of
a range stay in the range.

Main results:

- Theorem {lit}`F64.parse_fixedPoint`: the text of a scaled integer is read back.
- Theorem {lit}`F64.parse_display`: a printed value is read back as a value of the same range.
-/

namespace Library.F64

/-! ## Digits -/

/-- The digits in front of something else. -/
theorem span_digits {whole rest : List Char} (hwhole : ∀ c ∈ whole, c.isDigit = true)
    (hrest : ∀ c ∈ rest.head?, c.isDigit = false) :
    (whole ++ rest).span Char.isDigit = (whole, rest) := by
  rw [List.span_eq_takeWhile_dropWhile, List.takeWhile_append_of_pos hwhole,
    List.dropWhile_append_of_pos hwhole]
  cases rest with
  | nil => simp
  | cons c rest =>
      have hc : c.isDigit = false := hrest c rfl
      simp [hc]

/-- A text of digits only. -/
theorem span_all_digits {whole : List Char} (hwhole : ∀ c ∈ whole, c.isDigit = true) :
    whole.span Char.isDigit = (whole, []) := by
  have hnone : ∀ c ∈ ([] : List Char).head?, c.isDigit = false := by simp
  have hspan := span_digits hwhole hnone
  rwa [List.append_nil] at hspan

/-- A text of digits is read as their value. -/
theorem parseMagnitude_whole {whole : List Char} (hwhole : ∀ c ∈ whole, c.isDigit = true)
    (hne : whole ≠ []) : parseMagnitude whole = some (digitsValue whole : ℚ) := by
  simp only [parseMagnitude, span_all_digits hwhole, hne, false_and, if_false, parseExponent,
    Option.map_some, List.append_nil, List.length_nil]
  simp

/-- Digits around a point are read as a fraction. -/
theorem parseMagnitude_point {whole fraction : List Char}
    (hwhole : ∀ c ∈ whole, c.isDigit = true) (hfraction : ∀ c ∈ fraction, c.isDigit = true)
    (hne : whole ≠ []) : parseMagnitude (whole ++ '.' :: fraction) =
      some ((digitsValue (whole ++ fraction) : ℚ) / 10 ^ fraction.length) := by
  have hpoint : ∀ c ∈ ('.' :: fraction).head?, c.isDigit = false := by
    intro c hc
    obtain rfl := Option.some.inj hc
    decide
  simp only [parseMagnitude, span_digits hwhole hpoint, span_all_digits hfraction, hne, false_and,
    if_false, parseExponent, Option.map_some]
  simp [div_eq_mul_inv]

/-- A text that starts with a digit is read as a positive number. -/
theorem parse_of_digit {c : Char} {cs : List Char} (hc : c.isDigit = true) {magnitude : ℚ}
    (h : parseMagnitude (c :: cs) = some magnitude) :
    parse (String.ofList (c :: cs)) = .ok (ofMagnitude false magnitude) := by
  obtain ⟨hlow, hhigh⟩ := toNat_of_isDigit hc
  have hne : ∀ d : Char, d.isDigit = false → c ≠ d := by
    rintro d hd rfl
    rw [hc] at hd
    cases hd
  have hlower : c.toLower = c := by
    apply dif_neg
    rintro ⟨hupper, -⟩
    have hle : 65 ≤ c.toNat := UInt32.le_iff_toNat_le.mp hupper
    omega
  have hunsigned : parseUnsigned false (c :: cs) = .ok (ofMagnitude false magnitude) := by
    simp [parseUnsigned, hlower, hne 'i' (by decide), hne 'n' (by decide), h]
  unfold parse
  rw [String.toList_ofList]
  split
  · rename_i hnil
    cases hnil
  · rename_i hcons
    exact absurd (List.cons.inj hcons).1 (hne '+' (by decide))
  · rename_i hcons
    exact absurd (List.cons.inj hcons).1 (hne '-' (by decide))
  · exact hunsigned

/-! ## Scaled integers -/

/-- The digits of a number have its value. -/
theorem digitsValue_repr (n : Nat) : digitsValue n.repr.toList = n := by
  rw [digitsValue, Nat.toList_repr]
  exact Nat.ofDigitChars_toDigits (by decide) (by decide)

/-- A number has at least one digit. -/
theorem repr_toList_ne_nil (n : Nat) : n.repr.toList ≠ [] := by
  rw [Nat.toList_repr]
  exact Nat.toDigits_ne_nil

/-- The value of two groups of digits. -/
theorem digitsValue_append (whole fraction : List Char) :
    digitsValue (whole ++ fraction) =
      10 ^ fraction.length * digitsValue whole + digitsValue fraction := by
  rw [digitsValue, Nat.ofDigitChars_append, Nat.ofDigitChars_eq_ofDigitChars_zero]
  rfl

/-- The digits behind the point, with zeros in front. -/
def paddedDigits (n digits : Nat) : List Char :=
  List.replicate (digits - n.repr.length) '0' ++ n.repr.toList

/-- Padding consists of digits. -/
theorem isDigit_of_mem_paddedDigits {n digits : Nat} {c : Char} (h : c ∈ paddedDigits n digits) :
    c.isDigit = true := by
  rcases List.mem_append.mp h with hzero | hdigit
  · rw [List.eq_of_mem_replicate hzero]
    decide
  · exact isDigit_of_mem_repr hdigit

/-- A number is padded to the width, if it fits. -/
theorem length_paddedDigits {n digits : Nat} (hdigits : 0 < digits) (hn : n < 10 ^ digits) :
    (paddedDigits n digits).length = digits := by
  have hle : n.repr.length ≤ digits := (Nat.length_repr_le_iff hdigits).mpr hn
  rw [paddedDigits, List.length_append, List.length_replicate, String.length_toList]
  omega

/-- Padding does not change the value. -/
theorem digitsValue_paddedDigits (n digits : Nat) : digitsValue (paddedDigits n digits) = n := by
  rw [paddedDigits, digitsValue_append, digitsValue_repr, digitsValue,
    Nat.ofDigitChars_replicate_zero, mul_zero, mul_zero, zero_add]

/-- The text of a scaled integer is read back. -/
theorem parse_fixedPoint (scaled digits : Nat) :
    parse (fixedPoint scaled digits) = .ok (ofMagnitude false ((scaled : ℚ) / 10 ^ digits)) := by
  have hwhole : ∀ c ∈ (scaled / 10 ^ digits).repr.toList, c.isDigit = true :=
    fun c hc => isDigit_of_mem_repr hc
  have hne := repr_toList_ne_nil (scaled / 10 ^ digits)
  have hmagnitude : parseMagnitude (fixedPoint scaled digits).toList =
      some ((scaled : ℚ) / 10 ^ digits) := by
    unfold fixedPoint
    by_cases hdigits : digits = 0
    · rw [if_pos hdigits, parseMagnitude_whole hwhole hne, digitsValue_repr, hdigits, pow_zero,
        pow_zero, Nat.div_one, div_one]
    · rw [if_neg hdigits]
      have hlt := Nat.mod_lt scaled (Nat.pow_pos (n := digits) (by decide : 0 < 10))
      have hlength := length_paddedDigits (Nat.pos_of_ne_zero hdigits) hlt
      have htext : ((scaled / 10 ^ digits).repr ++ "." ++
          String.ofList (List.replicate (digits - (scaled % 10 ^ digits).repr.length) '0') ++
            (scaled % 10 ^ digits).repr).toList =
          (scaled / 10 ^ digits).repr.toList ++
            '.' :: paddedDigits (scaled % 10 ^ digits) digits := by
        simp [paddedDigits]
      rw [htext, parseMagnitude_point hwhole (fun c hc => isDigit_of_mem_paddedDigits hc) hne,
        digitsValue_append, digitsValue_repr, digitsValue_paddedDigits, hlength, Nat.div_add_mod]
  -- the text starts with the first digit of the whole part
  have hfirst : ∃ c cs, (fixedPoint scaled digits).toList = c :: cs ∧ c.isDigit = true := by
    obtain ⟨c, cs, hcons⟩ := List.exists_cons_of_ne_nil hne
    have hc : c.isDigit = true := hwhole c (by rw [hcons]; exact List.mem_cons_self)
    unfold fixedPoint
    split
    · exact ⟨c, cs, hcons, hc⟩
    · simp [hcons, hc]
  obtain ⟨c, cs, htext, hc⟩ := hfirst
  rw [htext] at hmagnitude
  rw [← String.ofList_toList (s := fixedPoint scaled digits), htext]
  exact parse_of_digit hc hmagnitude

/-! ## Ranges -/

/-- Rounding stays below a whole bound. -/
theorem roundHalfEven_le {q : ℚ} {n : Nat} (h : q ≤ n) : roundHalfEven q ≤ n := by
  have hfloor : q.floor.toNat ≤ n := by
    rw [Int.toNat_le]
    exact_mod_cast q.floor_le.trans h
  have hnext : ¬ q - q.floor.toNat < 1 / 2 → q.floor.toNat + 1 ≤ n := by
    intro hrest
    rcases hfloor.lt_or_eq with hlt | heq
    · exact hlt
    · rw [heq] at hrest
      linarith
  unfold roundHalfEven
  dsimp only
  split_ifs with hlow hhigh heven
  · exact hfloor
  · exact hnext hlow
  · exact hfloor
  · exact hnext hlow

/-- A number up to a hundred is read as a value of the range. -/
theorem ofMagnitude_range {magnitude : ℚ} (hpos : 0 ≤ magnitude) (hle : magnitude ≤ 100) :
    ∃ value, ofMagnitude false magnitude = .finite false value ∧ 0 ≤ value ∧ value ≤ 100 := by
  have hfinite : ¬ overflowBound ≤ magnitude := by
    have hbound : (100 : ℚ) < overflowBound := by
      have hsplit : overflowBound = 2 ^ 970 * (2 ^ 54 - 1) := by
        rw [overflowBound, mul_sub, ← pow_add, mul_one]
      have hone : (1 : ℚ) ≤ 2 ^ 970 := one_le_pow₀ (by norm_num)
      calc (100 : ℚ) < 1 * (2 ^ 54 - 1) := by norm_num
        _ ≤ 2 ^ 970 * (2 ^ 54 - 1) := mul_le_mul_of_nonneg_right hone (by norm_num)
        _ = overflowBound := hsplit.symm
    exact not_le.mpr (hle.trans_lt hbound)
  unfold ofMagnitude
  rw [if_neg hfinite]
  split_ifs with hsmall
  · exact ⟨0, rfl, le_rfl, by norm_num⟩
  · exact ⟨magnitude, rfl, hpos, hle⟩

/-- A printed value is read back as a value of the same range. -/
theorem parse_display {magnitude : ℚ} (hle : magnitude ≤ 100) :
    ∃ value, parse (display (.finite false magnitude)) = .ok (.finite false value) ∧
      0 ≤ value ∧ value ≤ 100 := by
  have hdisplay : ∀ places, ∃ value,
      parse (fixedPoint (roundHalfEven (magnitude * 10 ^ places)) places) =
        .ok (.finite false value) ∧ 0 ≤ value ∧ value ≤ 100 := by
    intro places
    have hpow : (0 : ℚ) < 10 ^ places := by positivity
    have hrounded : roundHalfEven (magnitude * 10 ^ places) ≤ 100 * 10 ^ places := by
      apply roundHalfEven_le
      push_cast
      exact mul_le_mul_of_nonneg_right hle hpow.le
    have hscaled :
        ((roundHalfEven (magnitude * 10 ^ places) : Nat) : ℚ) / 10 ^ places ≤ 100 := by
      rw [div_le_iff₀ hpow]
      exact_mod_cast hrounded
    rw [parse_fixedPoint]
    obtain ⟨value, hvalue, hpos, hle⟩ := ofMagnitude_range (by positivity) hscaled
    exact ⟨value, congrArg Except.ok hvalue, hpos, hle⟩
  rw [display, signText, if_neg Bool.false_ne_true, String.empty_append, displayMagnitude]
  exact hdisplay _

end Library.F64
