import EvilResp.Library.Text

/-!
# Numeric text

Decimal numbers, the texts of floats and of integers of any size, and texts that fit on one
line.

Main results:

- Theorem {lit}`isDouble_of_isDecimal`: a decimal number is the text of a float.
- Theorem {lit}`oneLine_of_isDouble` and theorem {lit}`oneLine_of_isBigNumber`: numbers have
  no line ends.
- Theorem {lit}`isBigNumber_signed`: digits and a sign make an integer.
- Theorem {lit}`length_asBytes_repr_le`: a number below a power of ten has few digits.
-/

namespace Library

/-! ## Lines -/

/-- No character of a line end. -/
def OneLine (s : String) : Prop :=
  '\r' ∉ s.toList ∧ '\n' ∉ s.toList

instance : DecidablePred OneLine := fun s => by
  unfold OneLine
  infer_instance

/-- A text is on one line if both its parts are. -/
theorem oneLine_append {s t : String} : OneLine (s ++ t) ↔ OneLine s ∧ OneLine t := by
  simp only [OneLine, String.toList_append, List.mem_append, not_or]
  constructor
  · rintro ⟨⟨hsr, htr⟩, hsn, htn⟩
    exact ⟨⟨hsr, hsn⟩, htr, htn⟩
  · rintro ⟨⟨hsr, hsn⟩, htr, htn⟩
    exact ⟨⟨hsr, htr⟩, hsn, htn⟩

/-- Without line feeds a text is on one line. -/
theorem OneLine.singleLine {s : String} (h : OneLine s) : SingleLine s :=
  h.2

/-! ## Numbers -/

/-- One or more decimal digits. -/
def isDigits (cs : List Char) : Bool :=
  !cs.isEmpty && cs.all Char.isDigit

/-- Digits without their sign. -/
def stripMinus : List Char → List Char
  | '-' :: cs => cs
  | cs => cs

/-- Digits, perhaps with a point and more digits behind them. -/
def isUnsigned (cs : List Char) : Bool :=
  isDigits (cs.takeWhile Char.isDigit) &&
    match cs.dropWhile Char.isDigit with
    | [] => true
    | '.' :: fraction => isDigits fraction
    | _ => false

/-- A number with a decimal exponent. -/
def isScientific (cs : List Char) : Bool :=
  isUnsigned (cs.takeWhile (· ≠ 'e')) &&
    match cs.dropWhile (· ≠ 'e') with
    | _ :: exponent => isDigits (stripMinus exponent)
    | [] => false

/-- A plain decimal number. -/
def isDecimal (s : String) : Bool :=
  isUnsigned (stripMinus s.toList)

/-- The texts of floats. -/
def isDouble (s : String) : Bool :=
  s = "nan" || stripMinus s.toList = ['i', 'n', 'f'] || isDecimal s ||
    isScientific (stripMinus s.toList)

/-- The texts of integers. -/
def isBigNumber (s : String) : Bool :=
  isDigits (stripMinus s.toList)

/-- A decimal number is a double. -/
theorem isDouble_of_isDecimal {s : String} (h : isDecimal s = true) : isDouble s = true := by
  rw [isDouble, h]
  simp

/-- Characters of numbers, none of which ends a line. -/
def isNumeric (c : Char) : Bool :=
  c.isDigit || c = '-' || c = '.' || c = 'e'

/-- Digits are numeric. -/
theorem isNumeric_of_isDigits {cs : List Char} (h : isDigits cs = true) :
    ∀ c ∈ cs, isNumeric c = true := by
  intro c hc
  rw [isDigits, Bool.and_eq_true, List.all_eq_true] at h
  simp [isNumeric, h.2 c hc]

/-- A sign is numeric. -/
theorem isNumeric_of_stripMinus {cs : List Char}
    (h : ∀ c ∈ stripMinus cs, isNumeric c = true) : ∀ c ∈ cs, isNumeric c = true := by
  unfold stripMinus at h
  split at h
  · exact List.forall_mem_cons.mpr ⟨rfl, h⟩
  · exact h

/-- An unsigned number is numeric. -/
theorem isNumeric_of_isUnsigned {cs : List Char} (h : isUnsigned cs = true) :
    ∀ c ∈ cs, isNumeric c = true := by
  rw [isUnsigned, Bool.and_eq_true] at h
  rcases h with ⟨hwhole, hrest⟩
  intro c hc
  rw [← List.takeWhile_append_dropWhile (p := Char.isDigit) (l := cs)] at hc
  rcases List.mem_append.mp hc with hc | hc
  · exact isNumeric_of_isDigits hwhole c hc
  · split at hrest
    · rename_i hnil
      rw [hnil] at hc
      cases hc
    · rename_i fraction hpoint
      rw [hpoint] at hc
      rcases List.mem_cons.mp hc with rfl | hc
      · rfl
      · exact isNumeric_of_isDigits hrest c hc
    · cases hrest

/-- So is one with an exponent. -/
theorem isNumeric_of_isScientific {cs : List Char} (h : isScientific cs = true) :
    ∀ c ∈ cs, isNumeric c = true := by
  rw [isScientific, Bool.and_eq_true] at h
  rcases h with ⟨hmantissa, hrest⟩
  intro c hc
  rw [← List.takeWhile_append_dropWhile (p := (· ≠ 'e')) (l := cs)] at hc
  rcases List.mem_append.mp hc with hc | hc
  · exact isNumeric_of_isUnsigned hmantissa c hc
  · split at hrest
    · rename_i first exponent hexponent
      have hhead : first = 'e' := by
        have hstop := List.head?_dropWhile_not (fun c => decide (c ≠ 'e')) cs
        rw [hexponent] at hstop
        simpa using hstop
      rw [hexponent] at hc
      rcases List.mem_cons.mp hc with rfl | hc
      · rw [hhead]
        rfl
      · exact isNumeric_of_stripMinus (isNumeric_of_isDigits hrest) c hc
    · cases hrest

/-- A numeric text is on one line. -/
theorem oneLine_of_isNumeric {s : String} (h : ∀ c ∈ s.toList, isNumeric c = true) :
    OneLine s := by
  constructor
  · intro hcr
    exact absurd (h _ hcr) (by decide)
  · intro hlf
    exact absurd (h _ hlf) (by decide)

/-- Floats have no line ends. -/
theorem oneLine_of_isDouble {s : String} (h : isDouble s = true) : OneLine s := by
  simp only [isDouble, Bool.or_eq_true, decide_eq_true_eq] at h
  rcases h with ((hnan | hinf) | hdecimal) | hscientific
  · rw [hnan]
    decide
  · have hchars : s.toList = ['i', 'n', 'f'] ∨ s.toList = ['-', 'i', 'n', 'f'] := by
      unfold stripMinus at hinf
      split at hinf
      · rename_i cs hminus
        exact .inr (by rw [hminus, hinf])
      · exact .inl hinf
    unfold OneLine
    rcases hchars with hchars | hchars
    · rw [hchars]
      decide
    · rw [hchars]
      decide
  · exact oneLine_of_isNumeric (isNumeric_of_stripMinus (isNumeric_of_isUnsigned hdecimal))
  · exact oneLine_of_isNumeric (isNumeric_of_stripMinus (isNumeric_of_isScientific hscientific))

/-- A big number is on one line. -/
theorem oneLine_of_isBigNumber {s : String} (h : isBigNumber s = true) : OneLine s :=
  oneLine_of_isNumeric (isNumeric_of_stripMinus (isNumeric_of_isDigits h))

/-! ## Printed integers -/

/-- Numbers are written in digits. -/
theorem isDigits_repr (n : Nat) : isDigits n.repr.toList = true := by
  rw [isDigits, Bool.and_eq_true, List.all_eq_true]
  constructor
  · simp
  · intro c hc
    exact isDigit_of_mem_repr hc

/-- Digits have no sign. -/
theorem stripMinus_of_isDigits {cs : List Char} (h : isDigits cs = true) : stripMinus cs = cs := by
  unfold stripMinus
  split
  · rw [isDigits, Bool.and_eq_true, List.all_eq_true] at h
    exact absurd (h.2 '-' List.mem_cons_self) (by decide)
  · rfl

/-- Digits, with or without a sign, make an integer. -/
theorem isBigNumber_signed (n : Nat) :
    isBigNumber (n.repr) = true ∧ isBigNumber ("-" ++ n.repr) = true := by
  constructor
  · rw [isBigNumber, stripMinus_of_isDigits (isDigits_repr n)]
    exact isDigits_repr n
  · have hchars : ("-" ++ n.repr).toList = '-' :: n.repr.toList := by
      rw [String.toList_append]
      rfl
    rw [isBigNumber, hchars]
    exact isDigits_repr n

/-! ## Lengths in bytes -/

/-- ASCII characters are single bytes. -/
theorem length_asBytes_ascii {s : String} (h : ∀ c ∈ s.toList, c.toNat < 0x80) :
    (asBytes s).length = s.length := by
  have hascii : ∀ cs : List Char, (∀ c ∈ cs, c.toNat < 0x80) →
      (cs.flatMap String.utf8EncodeChar).length = cs.length := by
    intro cs
    induction cs with
    | nil => simp
    | cons c cs ih =>
        intro h
        rcases List.forall_mem_cons.mp h with ⟨hc, hcs⟩
        rw [List.flatMap_cons, List.length_append, ih hcs, utf8EncodeChar_ascii hc]
        simp only [List.length_cons, List.length_nil]
        omega
  rw [asBytes_eq_flatMap, hascii _ h, String.length_toList]

/-- A number below a power of ten has few digits. -/
theorem length_asBytes_repr_le {n k : Nat} (hk : 0 < k) (h : n < 10 ^ k) :
    (asBytes n.repr).length ≤ k := by
  rw [length_asBytes_ascii]
  · exact (Nat.length_repr_le_iff hk).mpr h
  · intro c hc
    have hdigit := isDigit_of_mem_repr hc
    simp only [Char.isDigit, Bool.and_eq_true, decide_eq_true_eq] at hdigit
    have hle : c.toNat ≤ 57 := hdigit.2
    omega

end Library
