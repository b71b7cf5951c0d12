import Mathlib.Tactic

/-!
# Text and bytes

Strings are Unicode text, the wire carries bytes.  This module fixes the
conversions between the two, the lossy decoder that replaces each maximal
ill-formed run by one replacement character, ASCII case folding, and decimal
integers with explicit bounds.

Main results:

- Theorem {lit}`fromUtf8_eq_ok_iff`: strict decoding is the exact inverse of
  encoding.
- Theorem {lit}`mem_asBytes_ascii_iff`: a text holds an ASCII byte exactly where
  it holds that character.
- Theorem {lit}`parseInteger_toString`: a printed integer inside the bounds
  parses back to itself.
-/

namespace Library

/-- A byte string. -/
abbrev Bytes := List UInt8

/-! ## UTF-8 -/

/-- The UTF-8 encoding of a string. -/
def asBytes (s : String) : Bytes :=
  s.toByteArray.data.toList

/-- Number of bytes a well-formed sequence starting with this byte has, or zero
when no sequence starts with it. -/
def utf8Width (first : UInt8) : Nat :=
  if first ≤ 0x7f then 1
  else if 0xc2 ≤ first ∧ first ≤ 0xdf then 2
  else if 0xe0 ≤ first ∧ first ≤ 0xef then 3
  else if 0xf0 ≤ first ∧ first ≤ 0xf4 then 4
  else 0

/-- A byte that continues a character. -/
def isContinuation (b : UInt8) : Bool :=
  0x80 ≤ b ∧ b ≤ 0xbf

/-- The second byte is narrowed after four first bytes: this is what rules out
overlong forms, surrogates and values past the last code point. -/
def secondByteFits (first second : UInt8) : Bool :=
  if first = 0xe0 then 0xa0 ≤ second ∧ second ≤ 0xbf
  else if first = 0xed then 0x80 ≤ second ∧ second ≤ 0x9f
  else if first = 0xf0 then 0x90 ≤ second ∧ second ≤ 0xbf
  else if first = 0xf4 then 0x80 ≤ second ∧ second ≤ 0x8f
  else isContinuation second

/-- Length of the longest prefix of the tail that continues a sequence whose
first byte is given, looking at no more bytes than the sequence needs. -/
def continuationLength (first : UInt8) (width : Nat) (tail : Bytes) : Nat :=
  match tail with
  | [] => 0
  | second :: tail =>
      if 2 ≤ width ∧ secondByteFits first second then
        1 + ((tail.take (width - 2)).takeWhile isContinuation).length
      else 0

/-- The scalar value of one complete sequence. -/
def utf8Scalar : Bytes → Char
  | [a] => Char.ofNat a.toNat
  | [a, b] => Char.ofNat ((a.toNat - 0xc0) * 0x40 + (b.toNat - 0x80))
  | [a, b, c] =>
      Char.ofNat ((a.toNat - 0xe0) * 0x1000 + (b.toNat - 0x80) * 0x40 + (c.toNat - 0x80))
  | [a, b, c, d] =>
      Char.ofNat ((a.toNat - 0xf0) * 0x40000 + (b.toNat - 0x80) * 0x1000 +
        (c.toNat - 0x80) * 0x40 + (d.toNat - 0x80))
  | _ => '\uFFFD'

/-- Decode from one position, dropping the bytes the previous character
already covered. -/
def lossyChars : Nat → Bytes → List Char
  | _, [] => []
  | skip + 1, _ :: rest => lossyChars skip rest
  | 0, first :: rest =>
      let width := utf8Width first
      let present := 1 + continuationLength first width rest
      let c := if present = width then utf8Scalar ((first :: rest).take width) else '\uFFFD'
      c :: lossyChars (present - 1) rest

/-- Decode bytes, replacing every maximal ill-formed run by one U+FFFD. -/
def fromUtf8Lossy (bytes : Bytes) : String :=
  String.ofList (lossyChars 0 bytes)

/-- An ASCII byte is decoded on its own. -/
theorem lossyChars_ascii {b : UInt8} (hb : b ≤ 127) (rest : Bytes) :
    lossyChars 0 (b :: rest) = Char.ofNat b.toNat :: lossyChars 0 rest := by
  have hwidth : utf8Width b = 1 := by
    rw [utf8Width, if_pos hb]
  have hnone : continuationLength b 1 rest = 0 := by
    cases rest <;> simp [continuationLength]
  simp [lossyChars, hwidth, hnone, utf8Scalar]

/-- Where strict decoding stopped: the length of the valid prefix, and the
length of the ill-formed run unless the input ended inside a sequence. -/
structure Utf8Error where
  validUpTo : Nat
  errorLen : Option Nat
deriving DecidableEq

/-- A fault of the encoding in words. -/
def Utf8Error.message (e : Utf8Error) : String :=
  match e.errorLen with
  | some n => s!"invalid utf-8 sequence of {n} bytes from index {e.validUpTo}"
  | none => s!"incomplete utf-8 byte sequence from index {e.validUpTo}"

/-- Locate the first ill-formed sequence. -/
def utf8ErrorAt (position : Nat) : Nat → Bytes → Utf8Error
  | _, [] => { validUpTo := position, errorLen := none }
  | skip + 1, _ :: rest => utf8ErrorAt position skip rest
  | 0, first :: rest =>
      let width := utf8Width first
      let present := 1 + continuationLength first width rest
      if present = width then utf8ErrorAt (position + width) (width - 1) rest
      else if width ≠ 0 ∧ present = 1 + rest.length then
        { validUpTo := position, errorLen := none }
      else { validUpTo := position, errorLen := some present }

/-- Strict UTF-8 decoding. -/
def fromUtf8 (bytes : Bytes) : Except Utf8Error String :=
  match String.fromUTF8? ⟨bytes.toArray⟩ with
  | some s => .ok s
  | none => .error (utf8ErrorAt 0 0 bytes)

@[simp] theorem asBytes_append (s t : String) : asBytes (s ++ t) = asBytes s ++ asBytes t := by
  simp [asBytes, String.toByteArray_append]

theorem asBytes_ofList (cs : List Char) :
    asBytes (String.ofList cs) = cs.flatMap String.utf8EncodeChar := by
  simp [asBytes, List.utf8Encode]

theorem asBytes_eq_flatMap (s : String) : asBytes s = s.toList.flatMap String.utf8EncodeChar := by
  rw [← asBytes_ofList, String.ofList_toList]

theorem asBytes_injective : Function.Injective asBytes := by
  intro s t h
  rw [← String.toByteArray_inj]
  apply ByteArray.ext
  exact Array.toList_inj.mp h

/-- Strict decoding is the exact inverse of encoding. -/
theorem fromUtf8_eq_ok_iff {bytes : Bytes} {s : String} :
    fromUtf8 bytes = .ok s ↔ asBytes s = bytes := by
  unfold fromUtf8 String.fromUTF8?
  constructor
  · intro h
    split at h <;> rename_i hdecode
    · split at hdecode <;> rename_i hvalid
      · cases h
        cases hdecode
        simp [asBytes, String.fromUTF8]
      · cases hdecode
    · cases h
  · rintro rfl
    have harray : (⟨(asBytes s).toArray⟩ : ByteArray) = s.toByteArray := by
      simp [asBytes]
    have hvalid : (⟨(asBytes s).toArray⟩ : ByteArray).IsValidUTF8 := by
      rw [harray]
      exact s.isValidUTF8
    rw [dif_pos hvalid]
    refine congrArg Except.ok ?_
    rw [← String.toByteArray_inj]
    exact harray

@[simp] theorem fromUtf8_asBytes (s : String) : fromUtf8 (asBytes s) = .ok s :=
  fromUtf8_eq_ok_iff.mpr rfl

/-- Every byte of a multi-byte sequence has its top bit set. -/
theorem mem_utf8EncodeChar_ascii {c : Char} {b : UInt8} (hb : b < 0x80)
    (h : b ∈ String.utf8EncodeChar c) : c.toNat = b.toNat := by
  have hhigh : ∀ x m : UInt8, m = 0x80 ∨ m = 0xc0 ∨ m = 0xe0 ∨ m = 0xf0 → ¬ (x ||| m) < 0x80 := by
    intro x m hm hlt
    rw [UInt8.lt_iff_toNat_lt, UInt8.toNat_or] at hlt
    have hle : m.toNat ≤ x.toNat ||| m.toNat := Nat.right_le_or
    have hm' : 0x80 ≤ m.toNat := by
      rcases hm with rfl | rfl | rfl | rfl <;> decide
    have : (0x80 : UInt8).toNat = 0x80 := rfl
    omega
  rw [String.utf8EncodeChar_eq_utf8EncodeCharFast] at h
  simp only [String.utf8EncodeCharFast] at h
  split at h
  · rename_i hle
    simp only [List.mem_singleton] at h
    subst h
    have hval : c.val.toNat ≤ 0x7f := by simpa [UInt32.le_iff_toNat_le] using hle
    have hnat : c.toNat = c.val.toNat := rfl
    rw [UInt32.toNat_toUInt8, hnat]
    omega
  · split at h
    · simp only [List.mem_cons, List.not_mem_nil, or_false] at h
      rcases h with rfl | rfl
      · exact absurd hb (hhigh _ _ (by simp))
      · exact absurd hb (hhigh _ _ (by simp))
    · split at h
      · simp only [List.mem_cons, List.not_mem_nil, or_false] at h
        rcases h with rfl | rfl | rfl <;> exact absurd hb (hhigh _ _ (by simp))
      · simp only [List.mem_cons, List.not_mem_nil, or_false] at h
        rcases h with rfl | rfl | rfl | rfl <;> exact absurd hb (hhigh _ _ (by simp))

/-- An ASCII character is encoded by its own byte. -/
theorem utf8EncodeChar_ascii {c : Char} (hc : c.toNat < 0x80) :
    String.utf8EncodeChar c = [UInt8.ofNat c.toNat] := by
  rw [String.utf8EncodeChar_eq_utf8EncodeCharFast]
  have hle : c.val ≤ 0x7f := by
    rw [UInt32.le_iff_toNat_le]
    have : c.toNat = c.val.toNat := rfl
    simp
    omega
  simp only [String.utf8EncodeCharFast, if_pos hle]
  rfl

/-- A text holds an ASCII byte exactly where it holds that character. -/
theorem mem_asBytes_ascii_iff {c : Char} (hc : c.toNat < 0x80) {s : String} :
    UInt8.ofNat c.toNat ∈ asBytes s ↔ c ∈ s.toList := by
  rw [asBytes_eq_flatMap, List.mem_flatMap]
  constructor
  · rintro ⟨d, hd, hmem⟩
    have hlt : UInt8.ofNat c.toNat < 0x80 := by
      rw [UInt8.lt_iff_toNat_lt]
      simp [UInt8.toNat_ofNat']
      omega
    have hval := mem_utf8EncodeChar_ascii hlt hmem
    have hcd : d.toNat = c.toNat := by
      rw [hval, UInt8.toNat_ofNat']
      omega
    rwa [← Char.toNat_inj.mp hcd]
  · intro h
    exact ⟨c, h, by rw [utf8EncodeChar_ascii hc]; simp⟩

/-! ## ASCII case -/

/-- The text with its ASCII letters in upper case. -/
def toAsciiUppercase (s : String) : String :=
  String.ofList (s.toList.map Char.toUpper)

/-- The text with its ASCII letters in lower case. -/
def toAsciiLowercase (s : String) : String :=
  String.ofList (s.toList.map Char.toLower)

/-- Equality up to the case of ASCII letters. -/
def eqIgnoreAsciiCase (s t : String) : Bool :=
  toAsciiLowercase s == toAsciiLowercase t

theorem eqIgnoreAsciiCase_iff {s t : String} :
    eqIgnoreAsciiCase s t = true ↔ toAsciiLowercase s = toAsciiLowercase t :=
  beq_iff_eq

theorem toNat_ofNat {n : Nat} (h : n.isValidChar) : (Char.ofNat n).toNat = n := by
  have hvalid : Char.ofNat n = Char.ofNatAux n h := dif_pos h
  rw [hvalid]
  rfl

theorem toLower_toUpper (c : Char) : c.toUpper.toLower = c.toLower := by
  by_cases hlower : 'a'.val ≤ c.val ∧ c.val ≤ 'z'.val
  · have hupper : ¬ (c.val ≥ 'A'.val ∧ c.val ≤ 'Z'.val) := by
      simp only [UInt32.le_iff_toNat_le] at hlower ⊢
      simp at hlower ⊢
      omega
    have hkept : c.toLower = c := dif_neg hupper
    have hraised : c.toUpper.val = c.val + ('A'.val - 'a'.val) := by
      have hupper : c.toUpper = _ := dif_pos hlower
      rw [hupper]
    have hval : c.toUpper.val.toNat = c.val.toNat - 32 := by
      rw [hraised]
      simp only [UInt32.le_iff_toNat_le] at hlower
      simp [UInt32.toNat_add] at hlower ⊢
      omega
    have hback : c.toUpper.val ≥ 'A'.val ∧ c.toUpper.val ≤ 'Z'.val := by
      simp only [ge_iff_le, UInt32.le_iff_toNat_le, hval] at hlower ⊢
      simp at hlower ⊢
      omega
    have hlowered : c.toUpper.toLower.val = c.toUpper.val + ('a'.val - 'A'.val) := by
      have hlower : c.toUpper.toLower = _ := dif_pos hback
      rw [hlower]
    rw [hkept]
    apply Char.ext
    apply UInt32.toNat_inj.mp
    rw [hlowered]
    simp only [UInt32.le_iff_toNat_le] at hlower
    simp [UInt32.toNat_add] at hlower hval ⊢
    omega
  · have hkept : c.toUpper = c := dif_neg hlower
    rw [hkept]

theorem toAsciiLowercase_toAsciiUppercase (s : String) :
    toAsciiLowercase (toAsciiUppercase s) = toAsciiLowercase s := by
  have hsame : Char.toLower ∘ Char.toUpper = Char.toLower := funext toLower_toUpper
  simp [toAsciiLowercase, toAsciiUppercase, hsame]

theorem toUpper_toLower (c : Char) : c.toLower.toUpper = c.toUpper := by
  by_cases hupper : c.val ≥ 'A'.val ∧ c.val ≤ 'Z'.val
  · have hlower : ¬ ('a'.val ≤ c.val ∧ c.val ≤ 'z'.val) := by
      simp only [ge_iff_le, UInt32.le_iff_toNat_le] at hupper ⊢
      simp at hupper ⊢
      omega
    have hkept : c.toUpper = c := dif_neg hlower
    have hlowered : c.toLower.val = c.val + ('a'.val - 'A'.val) := by
      have hlower : c.toLower = _ := dif_pos hupper
      rw [hlower]
    have hval : c.toLower.val.toNat = c.val.toNat + 32 := by
      rw [hlowered]
      simp only [ge_iff_le, UInt32.le_iff_toNat_le] at hupper
      simp [UInt32.toNat_add] at hupper ⊢
      omega
    have hback : 'a'.val ≤ c.toLower.val ∧ c.toLower.val ≤ 'z'.val := by
      simp only [ge_iff_le, UInt32.le_iff_toNat_le, hval] at hupper ⊢
      simp at hupper ⊢
      omega
    have hraised : c.toLower.toUpper.val = c.toLower.val + ('A'.val - 'a'.val) := by
      have hupper : c.toLower.toUpper = _ := dif_pos hback
      rw [hupper]
    rw [hkept]
    apply Char.ext
    apply UInt32.toNat_inj.mp
    rw [hraised]
    simp only [ge_iff_le, UInt32.le_iff_toNat_le] at hupper
    simp [UInt32.toNat_add] at hupper hval ⊢
    omega
  · have hkept : c.toLower = c := dif_neg hupper
    rw [hkept]

theorem toAsciiUppercase_toAsciiLowercase (s : String) :
    toAsciiUppercase (toAsciiLowercase s) = toAsciiUppercase s := by
  have hsame : Char.toUpper ∘ Char.toLower = Char.toUpper := funext toUpper_toLower
  simp [toAsciiLowercase, toAsciiUppercase, hsame]

/-- Texts that differ in case only have one upper-case form. -/
theorem eqIgnoreAsciiCase_iff_uppercase {s t : String} :
    eqIgnoreAsciiCase s t = true ↔ toAsciiUppercase s = toAsciiUppercase t := by
  rw [eqIgnoreAsciiCase_iff]
  constructor
  · intro h
    rw [← toAsciiUppercase_toAsciiLowercase s, h, toAsciiUppercase_toAsciiLowercase]
  · intro h
    rw [← toAsciiLowercase_toAsciiUppercase s, h, toAsciiLowercase_toAsciiUppercase]

/-! ## Quoted text -/

/-- One character of a quoted text.  Which characters beyond ASCII print as
themselves is a table of the platform. -/
def escapeDebug (printable : Char → Bool) (c : Char) : List Char :=
  if c = '\x00' then ['\\', '0']
  else if c = '\t' then ['\\', 't']
  else if c = '\r' then ['\\', 'r']
  else if c = '\n' then ['\\', 'n']
  else if c = '"' then ['\\', '"']
  else if c = '\\' then ['\\', '\\']
  else if printable c then [c]
  else ['\\', 'u', '\x7b'] ++ Nat.toDigits 16 c.toNat ++ ['\x7d']

/-- A text between double quotes, with its special characters escaped. -/
def debugString (printable : Char → Bool) (s : String) : String :=
  String.ofList ('"' :: s.toList.flatMap (escapeDebug printable) ++ ['"'])

/-! ## Decimal integers -/

/-- Why a decimal integer was rejected. -/
inductive IntErrorKind where
  | empty
  | invalidDigit
  | posOverflow
  | negOverflow
deriving DecidableEq

/-- A fault of a number in words. -/
def IntErrorKind.message : IntErrorKind → String
  | empty => "cannot parse integer from empty string"
  | invalidDigit => "invalid digit found in string"
  | posOverflow => "number too large to fit in target type"
  | negOverflow => "number too small to fit in target type"

/-- Accumulate decimal digits inside the bounds, left to right. -/
def parseDigits (low high : Int) (negative : Bool) : List Char → Int → Except IntErrorKind Int
  | [], acc => .ok acc
  | c :: rest, acc =>
      if c.isDigit then
        let digit : Int := (c.toNat - '0'.toNat : Nat)
        let next := if negative then 10 * acc - digit else 10 * acc + digit
        if next < low then .error .negOverflow
        else if high < next then .error .posOverflow
        else parseDigits low high negative rest next
      else .error .invalidDigit

/-- Parse an optionally signed decimal integer.  A minus sign is a sign only for
a type with negative values. -/
def parseInteger (low high : Int) (s : String) : Except IntErrorKind Int :=
  match s.toList with
  | [] => .error .empty
  | ['+'] => .error .invalidDigit
  | ['-'] => .error .invalidDigit
  | '+' :: digits => parseDigits low high false digits 0
  | '-' :: digits =>
      if low < 0 then parseDigits low high true digits 0
      else .error .invalidDigit
  | digits => parseDigits low high false digits 0

theorem le_ofDigitChars (digits : List Char) (acc : Nat) :
    acc ≤ Nat.ofDigitChars 10 digits acc := by
  have hpos : 0 < 10 ^ digits.length := Nat.pow_pos (by omega)
  rw [Nat.ofDigitChars_eq_ofDigitChars_zero]
  exact (Nat.le_mul_of_pos_left acc hpos).trans (Nat.le_add_right _ _)

/-- Digits accumulate to the number they spell when it fits. -/
theorem parseDigits_nonneg {low high : Int} (hlow : low ≤ 0) (digits : List Char) :
    ∀ acc : Nat, (∀ c ∈ digits, c.isDigit) → (Nat.ofDigitChars 10 digits acc : Int) ≤ high →
      parseDigits low high false digits acc = .ok (Nat.ofDigitChars 10 digits acc : Int) := by
  induction digits with
  | nil => intro acc _ _; simp [parseDigits]
  | cons c rest ih =>
      intro acc hdigits hle
      rw [Nat.ofDigitChars_cons] at hle ⊢
      set next := 10 * acc + (c.toNat - '0'.toNat) with hnext
      have hmono := le_ofDigitChars rest next
      have hrest := ih next (fun d hd => hdigits d (List.mem_cons_of_mem _ hd)) hle
      have hcast : 10 * (acc : Int) + ((c.toNat - '0'.toNat : Nat) : Int) = (next : Int) := by
        rw [hnext]
        push_cast
        ring
      simp only [parseDigits, hdigits c List.mem_cons_self, if_true, Bool.false_eq_true, if_false,
        hcast]
      rw [if_neg (by omega), if_neg (by omega)]
      exact hrest

/-- Digits after a minus sign accumulate to the negated number when it fits. -/
theorem parseDigits_negative {low high : Int} (hhigh : 0 ≤ high) (digits : List Char) :
    ∀ acc : Nat, (∀ c ∈ digits, c.isDigit) → low ≤ -(Nat.ofDigitChars 10 digits acc : Int) →
      parseDigits low high true digits (-acc) = .ok (-(Nat.ofDigitChars 10 digits acc : Int)) := by
  induction digits with
  | nil => intro acc _ _; simp [parseDigits]
  | cons c rest ih =>
      intro acc hdigits hle
      rw [Nat.ofDigitChars_cons] at hle ⊢
      set next := 10 * acc + (c.toNat - '0'.toNat) with hnext
      have hmono := le_ofDigitChars rest next
      have hrest := ih next (fun d hd => hdigits d (List.mem_cons_of_mem _ hd)) hle
      have hcast : 10 * (-(acc : Int)) - ((c.toNat - '0'.toNat : Nat) : Int) = -(next : Int) := by
        rw [hnext]
        push_cast
        ring
      simp only [parseDigits, hdigits c List.mem_cons_self, if_true, hcast]
      rw [if_neg (by omega), if_neg (by omega)]
      exact hrest

theorem isDigit_of_mem_repr {n : Nat} {c : Char} (h : c ∈ n.repr.toList) : c.isDigit := by
  rw [Nat.toList_repr] at h
  exact Nat.isDigit_of_mem_toDigits (by decide) (by decide) h

theorem repr_injective {m n : Nat} (h : m.repr = n.repr) : m = n := by
  have hvalue := congrArg (fun s : String => Nat.ofDigitChars 10 s.toList 0) h
  simpa [Nat.toList_repr, Nat.ofDigitChars_toDigits] using hvalue

/-- A natural number inside the bounds parses back from its digits. -/
theorem parseInteger_repr {low high : Int} {n : Nat} (hlow : low ≤ 0) (hn : (n : Int) ≤ high) :
    parseInteger low high n.repr = .ok (n : Int) := by
  have hdigits : ∀ c ∈ n.repr.toList, c.isDigit := fun c => isDigit_of_mem_repr
  have hvalue : Nat.ofDigitChars 10 n.repr.toList 0 = n := by
    rw [Nat.toList_repr]
    exact Nat.ofDigitChars_toDigits (by decide) (by decide)
  have hparse : parseDigits low high false n.repr.toList 0 = _ :=
    parseDigits_nonneg hlow n.repr.toList 0 hdigits (by rwa [hvalue])
  rw [hvalue] at hparse
  have hplus : ¬ '+'.isDigit := by decide
  have hminus : ¬ '-'.isDigit := by decide
  unfold parseInteger
  split <;> rename_i hlist
  · exact absurd hlist (by rw [Nat.toList_repr]; exact Nat.toDigits_ne_nil)
  · exact absurd (hdigits '+' (by simp [hlist])) hplus
  · exact absurd (hdigits '-' (by simp [hlist])) hminus
  · exact absurd (hdigits '+' (by simp [hlist])) hplus
  · exact absurd (hdigits '-' (by simp [hlist])) hminus
  · simpa using hparse

/-- A printed integer inside the bounds parses back to itself. -/
theorem parseInteger_toString {low high n : Int} (hlow : low ≤ 0) (hhigh : 0 ≤ high)
    (hmin : low ≤ n) (hmax : n ≤ high) : parseInteger low high (toString n) = .ok n := by
  rw [Int.toString_eq_repr, Int.repr_eq_if]
  split <;> rename_i hn
  · have hcast : ((n.toNat : Nat) : Int) = n := Int.toNat_of_nonneg hn
    rw [parseInteger_repr hlow (by omega), hcast]
  · set m := (-n).toNat with hm
    have hcast : -(m : Int) = n := by omega
    have hdigits : ∀ c ∈ m.repr.toList, c.isDigit := fun c => isDigit_of_mem_repr
    have hvalue : Nat.ofDigitChars 10 m.repr.toList 0 = m := by
      rw [Nat.toList_repr]
      exact Nat.ofDigitChars_toDigits (by decide) (by decide)
    have hparse : parseDigits low high true m.repr.toList _ = _ :=
      parseDigits_negative hhigh m.repr.toList 0 hdigits (by rw [hvalue]; omega)
    rw [hvalue] at hparse
    have hne : m.repr.toList ≠ [] := by
      rw [Nat.toList_repr]
      exact Nat.toDigits_ne_nil
    have hlist : ("-" ++ m.repr).toList = '-' :: m.repr.toList := by
      simp [String.toList_append]
    obtain ⟨d, ds, hds⟩ := List.exists_cons_of_ne_nil hne
    unfold parseInteger
    rw [hlist, hds]
    simp only [show low < 0 by omega, if_true]
    rw [← hds]
    simpa [hcast] using hparse

/-- Accumulated digits stay inside the bounds. -/
theorem parseDigits_bounds {low high : Int} {negative : Bool} {digits : List Char} {acc n : Int}
    (hacc : low ≤ acc ∧ acc ≤ high) (h : parseDigits low high negative digits acc = .ok n) :
    low ≤ n ∧ n ≤ high := by
  induction digits generalizing acc with
  | nil =>
      simp only [parseDigits, Except.ok.injEq] at h
      exact h ▸ hacc
  | cons c rest ih =>
      simp only [parseDigits] at h
      generalize (if negative = true then 10 * acc - ((c.toNat - '0'.toNat : Nat) : Int)
        else 10 * acc + ((c.toNat - '0'.toNat : Nat) : Int)) = next at h
      split_ifs at h with hdigit hmin hmax
      exact ih ⟨by omega, by omega⟩ h

/-- A parsed integer lies inside the bounds. -/
theorem parseInteger_bounds {low high n : Int} {s : String} (hlow : low ≤ 0) (hhigh : 0 ≤ high)
    (h : parseInteger low high s = .ok n) : low ≤ n ∧ n ≤ high := by
  unfold parseInteger at h
  split at h
  · cases h
  · cases h
  · cases h
  · exact parseDigits_bounds ⟨hlow, hhigh⟩ h
  · split at h
    · exact parseDigits_bounds ⟨hlow, hhigh⟩ h
    · cases h
  · exact parseDigits_bounds ⟨hlow, hhigh⟩ h

/-- A printed integer is one line of text. -/
theorem not_mem_toString_int {n : Int} {c : Char} (hdigit : ¬ c.isDigit) (hminus : c ≠ '-') :
    c ∉ (toString n).toList := by
  intro h
  rw [Int.toString_eq_repr, Int.repr_eq_if] at h
  split at h
  · exact hdigit (isDigit_of_mem_repr h)
  · rw [String.toList_append, List.mem_append] at h
    rcases h with h | h
    · exact hminus (by simpa using h)
    · exact hdigit (isDigit_of_mem_repr h)

/-! ## Single lines -/

/-- No line feed occurs in a text. -/
def SingleLine (s : String) : Prop :=
  '\n' ∉ s.toList

instance : DecidablePred SingleLine := fun s => by
  unfold SingleLine
  infer_instance

@[simp] theorem singleLine_append {s t : String} :
    SingleLine (s ++ t) ↔ SingleLine s ∧ SingleLine t := by
  simp [SingleLine]

/-- A literal is checked through its characters, without decoding it. -/
theorem singleLine_ofList {cs : List Char} (h : cs.all (· != '\n') = true) :
    SingleLine (String.ofList cs) := by
  simp only [SingleLine, String.toList_ofList]
  intro hmem
  simpa using List.all_eq_true.mp h _ hmem

/-- A text is a single line exactly when its encoding has no LF byte. -/
theorem singleLine_iff_bytes {s : String} : SingleLine s ↔ (10 : UInt8) ∉ asBytes s := by
  have hlf : (10 : UInt8) = UInt8.ofNat '\n'.toNat := rfl
  rw [hlf, mem_asBytes_ascii_iff (by decide)]
  rfl

theorem digitChar_ne_lf (n : Nat) : '\n' ≠ n.digitChar := by
  by_cases hn : n < 16
  · interval_cases n <;> decide
  · obtain ⟨k, rfl⟩ : ∃ k, n = k + 16 := ⟨n - 16, by omega⟩
    simp [Nat.digitChar]

theorem lf_not_mem_toDigits (n : Nat) : '\n' ∉ Nat.toDigits 16 n := by
  induction n using Nat.strong_induction_on with
  | _ n ih =>
      rw [Nat.toDigits_eq_if (by omega)]
      by_cases hn : n < 16
      · simp [hn, digitChar_ne_lf n]
      · rw [if_neg hn, List.mem_append, List.mem_singleton, not_or]
        exact ⟨ih _ (by omega), digitChar_ne_lf _⟩

theorem lf_not_mem_escapeDebug (printable : Char → Bool) (c : Char) :
    '\n' ∉ escapeDebug printable c := by
  unfold escapeDebug
  split_ifs with h0 h1 h2 h3 h4 h5 h6
  · decide
  · decide
  · decide
  · decide
  · decide
  · decide
  · simpa using Ne.symm h3
  · simp [lf_not_mem_toDigits]

/-- Quoting leaves no line feed. -/
theorem singleLine_debugString (printable : Char → Bool) (s : String) :
    SingleLine (debugString printable s) := by
  simp only [SingleLine, debugString, String.toList_ofList, List.mem_cons, List.mem_append,
    List.mem_flatMap, not_or]
  refine ⟨⟨by decide, ?_⟩, by simp⟩
  rintro ⟨c, -, hc⟩
  exact lf_not_mem_escapeDebug printable c hc

end Library
