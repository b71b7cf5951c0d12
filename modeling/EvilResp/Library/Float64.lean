import EvilResp.Library.Text
import Mathlib.Data.Int.Log

/-!
# Floating-point settings

Settings are read, compared, scaled by constants and printed.  A finite value is
kept as an exact rational with its sign, so the only rounding here is overflow to
infinity and underflow to zero when a text is read.

Main results:

- Theorem {lit}`F64.singleLine_display`: a printed value is one line of text.
- Theorem {lit}`F64.le_hundred_finite`: a value between two finite bounds is finite.
-/

namespace Library

/-- A 64-bit floating-point value; the magnitude of a finite one is not negative. -/
inductive F64 where
  | nan
  | infinite (negative : Bool)
  | finite (negative : Bool) (magnitude : ℚ)
deriving DecidableEq

namespace F64

/-- The value of a rational; zero is positive. -/
def ofRat (q : ℚ) : F64 :=
  .finite (q < 0) |q|

/-- The signed value of a finite number. -/
def signed (negative : Bool) (magnitude : ℚ) : ℚ :=
  if negative then -magnitude else magnitude

/-! ## Order -/

/-- Position on the extended line; not-a-number has none. -/
def rank : F64 → Option (Int × ℚ)
  | .nan => none
  | .infinite negative => some (if negative then -1 else 1, 0)
  | .finite negative magnitude => some (0, signed negative magnitude)

/-- IEEE comparison: false as soon as one side is not a number. -/
def lt (x y : F64) : Bool :=
  match x.rank, y.rank with
  | some (a, p), some (b, q) => a < b ∨ (a = b ∧ p < q)
  | _, _ => false

/-- The order of numbers; nothing compares with what is no number. -/
def le (x y : F64) : Bool :=
  match x.rank, y.rank with
  | some (a, p), some (b, q) => a < b ∨ (a = b ∧ p ≤ q)
  | _, _ => false

/-- IEEE equality; the two zeros are equal. -/
def eq (x y : F64) : Bool :=
  match x.rank, y.rank with
  | some a, some b => a = b
  | _, _ => false

/-- The number zero. -/
def zero : F64 :=
  .finite false 0

/-- The number hundred. -/
def hundred : F64 :=
  .finite false 100

/-- Membership in a closed range of values. -/
def inRange (low high x : F64) : Bool :=
  low.le x && x.le high

/-! ## Arithmetic with constants -/

/-- Subtract a constant. -/
def subRat (x : F64) (c : ℚ) : F64 :=
  match x with
  | .finite negative magnitude => ofRat (signed negative magnitude - c)
  | x => x

/-- Multiply by a positive constant. -/
def mulRat (x : F64) (c : ℚ) : F64 :=
  match x with
  | .finite negative magnitude => .finite negative (magnitude * c)
  | x => x

/-- Divide by a positive constant. -/
def divRat (x : F64) (c : ℚ) : F64 :=
  x.mulRat c⁻¹

/-- The larger of a value and zero; not-a-number counts as zero. -/
def maxZero (x : F64) : F64 :=
  if zero.lt x then x else zero

/-! ## Reading -/

/-- The reasons for a text that is no number. -/
inductive ParseError where
  | empty
  | invalid
deriving DecidableEq

/-- A reason in words. -/
def ParseError.message : ParseError → String
  | empty => "cannot parse float from empty string"
  | invalid => "invalid float literal"

/-- Values from this one on round to infinity. -/
def overflowBound : ℚ :=
  2 ^ 1024 - 2 ^ 970

/-- Values up to this one round to zero. -/
def underflowBound : ℚ :=
  1 / 2 ^ 1075

/-- A magnitude with its sign, infinite if it is too large. -/
def ofMagnitude (negative : Bool) (magnitude : ℚ) : F64 :=
  if overflowBound ≤ magnitude then .infinite negative
  else if magnitude ≤ underflowBound then .finite negative 0
  else .finite negative magnitude

/-- The number a list of decimal digits spells. -/
def digitsValue (digits : List Char) : Nat :=
  Nat.ofDigitChars 10 digits 0

/-- The exponent part: nothing, or a marker, an optional sign and digits. -/
def parseExponent : List Char → Option Int
  | [] => some 0
  | c :: rest =>
      if c = 'e' ∨ c = 'E' then
        let (negative, digits) :=
          match rest with
          | '+' :: digits => (false, digits)
          | '-' :: digits => (true, digits)
          | digits => (false, digits)
        if digits = [] ∨ !digits.all Char.isDigit then none
        else some (if negative then -(digitsValue digits : Int) else digitsValue digits)
      else none

/-- Digits with an optional point and exponent; one digit is required. -/
def parseMagnitude (cs : List Char) : Option ℚ :=
  let (whole, rest) := cs.span Char.isDigit
  let (fraction, rest) :=
    match rest with
    | '.' :: rest => rest.span Char.isDigit
    | rest => ([], rest)
  if whole = [] ∧ fraction = [] then none
  else
    (parseExponent rest).map fun (exponent : Int) =>
      (digitsValue (whole ++ fraction) : ℚ) * (10 : ℚ) ^ (exponent - fraction.length)

/-- Read a number without its sign. -/
def parseUnsigned (negative : Bool) (cs : List Char) : Except ParseError F64 :=
  let lower := cs.map Char.toLower
  if lower = ['i', 'n', 'f'] ∨ lower = ['i', 'n', 'f', 'i', 'n', 'i', 't', 'y'] then
    .ok (.infinite negative)
  else if lower = ['n', 'a', 'n'] then .ok .nan
  else
    match parseMagnitude cs with
    | some magnitude => .ok (ofMagnitude negative magnitude)
    | none => .error .invalid

/-- Read a number. -/
def parse (s : String) : Except ParseError F64 :=
  match s.toList with
  | [] => .error .empty
  | '+' :: cs => parseUnsigned false cs
  | '-' :: cs => parseUnsigned true cs
  | cs => parseUnsigned false cs

/-! ## Printing -/

/-- A scaled integer with a fixed number of digits after the point. -/
def fixedPoint (scaled digits : Nat) : String :=
  let whole := (scaled / 10 ^ digits).repr
  if digits = 0 then whole
  else
    let fraction := (scaled % 10 ^ digits).repr
    whole ++ "." ++ String.ofList (List.replicate (digits - fraction.length) '0') ++ fraction

/-- Round to an integer, ties to even. -/
def roundHalfEven (q : ℚ) : Nat :=
  let n := q.floor.toNat
  let rest := q - n
  if rest < 1 / 2 then n
  else if 1 / 2 < rest then n + 1
  else if n % 2 = 0 then n
  else n + 1

/-- The number of decimal places that spell a rational exactly, if there is one. -/
def exactPlaces (q : ℚ) : Option Nat :=
  (List.range (q.den.log2 + 2)).find? fun places => q.den ∣ 10 ^ places

/-- Decimal places that show seventeen significant digits. -/
def significantPlaces (q : ℚ) : Nat :=
  ((16 : Int) - Int.log 10 q).toNat

/-- A magnitude as it is written. -/
def displayMagnitude (q : ℚ) : String :=
  let places := (exactPlaces q).getD (significantPlaces q)
  fixedPoint (roundHalfEven (q * 10 ^ places)) places

/-- The sign as it is written. -/
def signText (negative : Bool) : String :=
  if negative then "-" else ""

/-- The shortest form, without exponent. -/
def display : F64 → String
  | .nan => "NaN"
  | .infinite negative => signText negative ++ "inf"
  | .finite negative magnitude => signText negative ++ displayMagnitude magnitude

/-- The form with a fixed number of decimal places. -/
def displayFixed (places : Nat) : F64 → String
  | .finite negative magnitude =>
      signText negative ++ fixedPoint (roundHalfEven (magnitude * 10 ^ places)) places
  | x => x.display

/-! ## Facts -/

theorem lf_not_mem_signText (negative : Bool) : '\n' ∉ (signText negative).toList := by
  cases negative <;> decide

theorem lf_not_mem_repr (n : Nat) : '\n' ∉ n.repr.toList := by
  intro h
  have hdigit : '\n'.isDigit = true := isDigit_of_mem_repr h
  exact absurd hdigit (by decide)

theorem lf_not_mem_fixedPoint (scaled digits : Nat) : '\n' ∉ (fixedPoint scaled digits).toList := by
  have hzeros : ∀ n, '\n' ∉ List.replicate n '0' := by
    intro n h
    exact absurd (List.eq_of_mem_replicate h) (by decide)
  unfold fixedPoint
  by_cases hdigits : digits = 0
  · rw [if_pos hdigits]
    exact lf_not_mem_repr _
  · rw [if_neg hdigits]
    simp only [String.toList_append, String.toList_ofList, List.mem_append, not_or]
    exact ⟨⟨⟨lf_not_mem_repr _, by decide⟩, hzeros _⟩, lf_not_mem_repr _⟩

theorem singleLine_parseError (error : ParseError) : SingleLine error.message := by
  cases error with
  | empty => exact singleLine_ofList rfl
  | invalid => exact singleLine_ofList rfl

/-- A printed value is one line of text. -/
theorem singleLine_display (x : F64) : SingleLine x.display := by
  cases x with
  | nan => decide
  | infinite negative => cases negative <;> decide
  | finite negative magnitude =>
      rw [display, singleLine_append]
      exact ⟨lf_not_mem_signText negative, lf_not_mem_fixedPoint _ _⟩

/-- The magnitude of a finite value is not negative. -/
def Proper : F64 → Prop
  | .finite _ magnitude => 0 ≤ magnitude
  | _ => True

theorem proper_hundred : hundred.Proper := by
  rw [hundred, Proper]
  norm_num

theorem proper_ofMagnitude (negative : Bool) {magnitude : ℚ} (h : 0 ≤ magnitude) :
    (ofMagnitude negative magnitude).Proper := by
  unfold ofMagnitude
  split_ifs
  · trivial
  · exact le_rfl
  · exact h

theorem parseMagnitude_nonneg {cs : List Char} {magnitude : ℚ}
    (h : parseMagnitude cs = some magnitude) : 0 ≤ magnitude := by
  unfold parseMagnitude at h
  simp only at h
  split_ifs at h
  rcases Option.map_eq_some_iff.mp h with ⟨exponent, -, rfl⟩
  positivity

/-- A value that was read is proper. -/
theorem proper_parse {s : String} {x : F64} (h : parse s = .ok x) : x.Proper := by
  have hunsigned : ∀ {negative : Bool} {cs : List Char}, parseUnsigned negative cs = .ok x →
      x.Proper := by
    intro negative cs h
    unfold parseUnsigned at h
    simp only at h
    split_ifs at h
    · cases h
      trivial
    · cases h
      trivial
    · split at h
      · rename_i magnitude hmagnitude
        cases h
        exact proper_ofMagnitude negative (parseMagnitude_nonneg hmagnitude)
      · cases h
  unfold parse at h
  split at h
  · cases h
  · exact hunsigned h
  · exact hunsigned h
  · exact hunsigned h

/-- A value between zero and a hundred is finite. -/
theorem le_hundred_finite {x : F64} (h : inRange zero hundred x = true) :
    ∃ negative magnitude, x = .finite negative magnitude ∧ 0 ≤ signed negative magnitude ∧
      signed negative magnitude ≤ 100 := by
  simp only [inRange, Bool.and_eq_true] at h
  obtain ⟨hlow, hhigh⟩ := h
  cases x with
  | nan => simp [le, rank] at hlow
  | infinite negative => cases negative <;> simp [le, rank, zero, hundred] at hlow hhigh
  | finite negative magnitude =>
      refine ⟨negative, magnitude, rfl, ?_, ?_⟩
      · simpa [le, rank, zero, signed] using hlow
      · simpa [le, rank, hundred, signed] using hhigh

theorem not_le_of_lt {x y : F64} (h : x.lt y = true) : y.le x = false := by
  unfold lt at h
  unfold le
  cases hx : x.rank with
  | none => simp [hx] at h
  | some a =>
      cases hy : y.rank with
      | none => simp [hx, hy] at h
      | some b =>
          simp only [hx, hy, decide_eq_true_eq] at h
          simp only [decide_eq_false_iff_not, not_or, not_and]
          rcases h with hlt | ⟨heq, hlt⟩
          · exact ⟨by omega, fun heq => by omega⟩
          · exact ⟨by omega, fun _ => not_le.mpr hlt⟩

theorem mulRat_one (x : F64) : x.mulRat 1 = x := by
  cases x with
  | finite negative magnitude => rw [mulRat, mul_one]
  | _ => rfl

theorem rank_finite (negative : Bool) (magnitude : ℚ) :
    (finite negative magnitude).rank = some (0, signed negative magnitude) :=
  rfl

theorem eq_zero_iff {x : F64} : x.eq .zero = true ↔
    ∃ negative magnitude, x = .finite negative magnitude ∧ signed negative magnitude = 0 := by
  rw [eq, zero, rank_finite]
  cases x with
  | nan => simp [rank]
  | infinite negative => cases negative <;> simp [rank]
  | finite negative magnitude => simp [rank, signed]

theorem rank_ofRat (q : ℚ) : (ofRat q).rank = some (0, q) := by
  by_cases hq : q < 0
  · simp [ofRat, rank, signed, hq, abs_of_neg hq]
  · simp [ofRat, rank, signed, hq, abs_of_nonneg (not_lt.mp hq)]

theorem ofRat_of_nonneg {q : ℚ} (h : 0 ≤ q) : ofRat q = .finite false q := by
  rw [ofRat, abs_of_nonneg h, decide_eq_false (not_lt.mpr h)]

/-- Above a constant, what is above it by is positive; elsewhere nothing is left. -/
theorem maxZero_subRat (negative : Bool) (magnitude c : ℚ) :
    ((finite negative magnitude).subRat c).maxZero =
      .finite false (max (signed negative magnitude - c) 0) := by
  have hlt : ∀ q : ℚ, zero.lt (ofRat q) = decide (0 < q) := by
    intro q
    simp [lt, zero, rank_ofRat, rank_finite, signed]
  simp only [maxZero, subRat, hlt]
  by_cases hpos : 0 < signed negative magnitude - c
  · rw [if_pos (by simpa using hpos), max_eq_left hpos.le, ofRat_of_nonneg hpos.le]
  · rw [if_neg (by simpa using hpos), max_eq_right (not_lt.mp hpos)]
    rfl

/-- The range of a value that is not negative. -/
theorem inRange_finite {magnitude : ℚ} :
    inRange zero hundred (.finite false magnitude) = true ↔ 0 ≤ magnitude ∧ magnitude ≤ 100 := by
  simp [inRange, le, rank, zero, hundred, signed]

example : (parse "12.50").map display = .ok "12.5" := by decide +kernel

end F64

end Library
