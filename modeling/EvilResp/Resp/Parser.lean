import EvilResp.Error
import EvilResp.Library.Result
import EvilResp.Resp.Frame

/-!
# The recursive frame parser

The parser works on a complete buffer.  Its position is represented by the bytes
that remain, and its depth counter by the number of levels still allowed, so the
recursion is structural.

Main results:

- Theorem {lit}`takeLine_append`: a text without CRLF, followed by CRLF, is the
  line that is taken.
- Theorem {lit}`readPairs_eq`: pairs are read exactly as twice as many frames.
-/

namespace EvilResp
namespace Resp

open Library
open EvilResp.Resp.Frame (byteOf crlf)

/-- No frame is larger. -/
def maxFrameBytes : Nat := 64 * 1024 * 1024

/-- No frame is nested more deeply. -/
def maxFrameDepth : Nat := 128

/-- The character a kind byte stands for. -/
def asChar (b : UInt8) : Char :=
  Char.ofNat b.toNat

/-- A parser returns its result and the bytes it has not consumed. -/
abbrev Parser (α : Type) := Bytes → Except RespError (α × Bytes)

/-! ## Lines and lengths -/

/-- Split at the first CRLF. -/
def splitLine : Bytes → Option (Bytes × Bytes)
  | 13 :: 10 :: rest => some ([], rest)
  | b :: rest => (splitLine rest).map fun (line, rest) => (b :: line, rest)
  | [] => none

/-- The bytes before the first CRLF. -/
def takeLine : Parser Bytes := fun input =>
  match splitLine input with
  | some (line, rest) => .ok (line, rest)
  | none => .error .missingTerminator

/-- A line of text. -/
def takeUtf8Line : Parser String := fun input => do
  let (line, rest) ← takeLine input
  match fromUtf8 line with
  | .ok text => .ok (text, rest)
  | .error error => .error (.invalidUtf8 error)

/-- A signed 64-bit decimal integer. -/
def parseI64 (s : String) : Except IntErrorKind Int64 :=
  (parseInteger (-2 ^ 63) (2 ^ 63 - 1) s).map Int64.ofInt

/-- A line with a number. -/
def takeI64Line : Parser Int64 := fun input => do
  let (text, rest) ← takeUtf8Line input
  match parseI64 text with
  | .ok value => .ok (value, rest)
  | .error error => .error (.invalidInteger error)

/-- A length is not negative. -/
def usizeLen (len : Int64) : Except RespError Nat :=
  if len.toInt < 0 then .error (.invalidLength len.toInt) else .ok len.toInt.toNat

/-- Reject an aggregate whose children cannot fit in the remaining bytes. -/
def validateSequenceLen (len : Int64) (minimumBytes : Nat) (input : Bytes) :
    Except RespError Nat := do
  let count ← usizeLen len
  if count > input.length / minimumBytes then .error .truncatedAggregate else .ok count

/-- So many bytes, with a CRLF behind them. -/
def takeBlob (len : Int64) : Parser Bytes := fun input => do
  let len ← usizeLen len
  if input.length < 2 ∨ len > input.length - 2 then .error .truncatedBlob
  else
    match input.drop len with
    | 13 :: 10 :: rest => .ok (input.take len, rest)
    | _ => .error .blobMissingCrlf

/-! ## Frames -/

/-- The ASCII whitespace bytes. -/
def isAsciiWhitespace (b : UInt8) : Bool :=
  b = 9 ∨ b = 10 ∨ b = 12 ∨ b = 13 ∨ b = 32

/-- The words of an inline command, at white space. -/
def shellWords (line : Bytes) : List Bytes :=
  (line.splitOnP isAsciiWhitespace).filter fun part => !part.isEmpty

/-- Parse a fixed number of consecutive frames. -/
def readItems (parse : Parser Frame) : Nat → Parser (List Frame)
  | 0, input => .ok ([], input)
  | n + 1, input => do
      let (item, input) ← parse input
      let (items, input) ← readItems parse n input
      .ok (item :: items, input)

/-- Parse a fixed number of key/value pairs. -/
def readPairs (parse : Parser Frame) : Nat → Parser (List (Frame × Frame))
  | 0, input => .ok ([], input)
  | n + 1, input => do
      let (key, input) ← parse input
      let (value, input) ← parse input
      let (pairs, input) ← readPairs parse n input
      .ok ((key, value) :: pairs, input)

/-- The leading byte is part of an inline command's text. -/
def parseInline (first : UInt8) : Parser Frame := fun input => do
  let (line, rest) ← takeLine (first :: input)
  let parts := shellWords line
  .ok (.inline (if parts.isEmpty then [[first]] else parts), rest)

/-- A blob, or none if its length is -1. -/
def parseOptionalBlob : Parser (Option Bytes) := fun input => do
  let (len, input) ← takeI64Line input
  if len.toInt = -1 then .ok (none, input)
  else
    let (bytes, input) ← takeBlob len input
    .ok (some bytes, input)

/-- A blob whose length is not negative. -/
def parseRequiredBlob : Parser Bytes := fun input => do
  let (len, input) ← takeI64Line input
  if len.toInt < 0 then .error .negativeBlob else takeBlob len input

/-- So many frames, if they can fit into what is left. -/
def readSequence (parse : Parser Frame) (len : Int64) : Parser (List Frame) := fun input => do
  let count ← validateSequenceLen len 3 input
  readItems parse count input

/-- A sequence, or none if its length is -1. -/
def parseOptionalSequence (parse : Parser Frame) (build : Option (List Frame) → Frame) :
    Parser Frame := fun input => do
  let (len, input) ← takeI64Line input
  if len.toInt = -1 then .ok (build none, input)
  else
    let (items, input) ← readSequence parse len input
    .ok (build (some items), input)

/-- A sequence whose length is not negative. -/
def parseSequence (parse : Parser Frame) (build : List Frame → Frame) : Parser Frame :=
  fun input => do
    let (len, input) ← takeI64Line input
    if len.toInt < 0 then .error .negativeAggregate
    else
      let (items, input) ← readSequence parse len input
      .ok (build items, input)

/-- As many keys and values as announced. -/
def parseMapLike (parse : Parser Frame) (build : List (Frame × Frame) → Frame) : Parser Frame :=
  fun input => do
    let (len, input) ← takeI64Line input
    if len.toInt < 0 then .error .negativeMap
    else
      let count ← validateSequenceLen len 6 input
      let (items, input) ← readPairs parse count input
      .ok (build items, input)

/-- Dispatch on the kind byte.  {lit}`parse` reads the children. -/
def parseFrameInner (parse : Parser Frame) : Parser Frame
  | [] => .error .emptyInput
  | kind :: input =>
      match asChar kind with
      | '+' => do
          let (text, input) ← takeUtf8Line input
          .ok (.simpleString text, input)
      | '-' => do
          let (text, input) ← takeUtf8Line input
          .ok (.simpleError text, input)
      | ':' => do
          let (value, input) ← takeI64Line input
          .ok (.integer value, input)
      | '$' => do
          let (bytes, input) ← parseOptionalBlob input
          .ok (.bulkString bytes, input)
      | '*' => parseOptionalSequence parse .array input
      | '_' => do
          let (line, input) ← takeLine input
          if line ≠ [] then .error .nullWithData else .ok (.null, input)
      | '#' => do
          let (line, input) ← takeLine input
          if line = [byteOf 't'] then .ok (.boolean true, input)
          else if line = [byteOf 'f'] then .ok (.boolean false, input)
          else .error .invalidBoolean
      | ',' => do
          let (text, input) ← takeUtf8Line input
          .ok (.double text, input)
      | '(' => do
          let (text, input) ← takeUtf8Line input
          .ok (.bigNumber text, input)
      | '!' => do
          let (bytes, input) ← parseRequiredBlob input
          .ok (.bulkError bytes, input)
      | '=' => do
          let (bytes, input) ← parseRequiredBlob input
          .ok (.verbatimString bytes, input)
      | '%' => parseMapLike parse .map input
      | '~' => parseSequence parse .set input
      | '>' => parseSequence parse .push input
      | '|' => parseMapLike parse .attribute input
      | _ => parseInline kind input

/-- Parse one frame with a bounded number of nesting levels. -/
def parseFrameAt : Nat → Parser Frame
  | 0 => fun _ => .error .nesting
  | levels + 1 => parseFrameInner (parseFrameAt levels)

/-- Parse a buffer that must hold exactly one frame. -/
def parseFrame (bytes : Bytes) : Except RespError Frame := do
  if bytes.length > maxFrameBytes then .error .exceedsSize
  else
    let (frame, rest) ← parseFrameAt maxFrameDepth bytes
    if rest ≠ [] then .error (.trailingBytes (bytes.length - rest.length))
    else .ok frame

/-! ## Lines -/

/-- No CRLF occurs in a byte string. -/
def NoCrlf (line : Bytes) : Prop :=
  ¬ crlf <:+: line

instance : DecidablePred NoCrlf := fun line => by
  unfold NoCrlf
  infer_instance

/-- A byte that does not begin a CRLF belongs to the line. -/
theorem splitLine_cons {b : UInt8} {rest : Bytes} (h : ¬ (b = 13 ∧ rest.head? = some 10)) :
    splitLine (b :: rest) = (splitLine rest).map fun (line, rest) => (b :: line, rest) := by
  rw [splitLine.eq_def]
  split
  · rename_i heq
    simp only [List.cons.injEq] at heq
    exact absurd ⟨heq.1, by simp [heq.2]⟩ h
  · rename_i heq
    simp only [List.cons.injEq] at heq
    rw [heq.1, heq.2]
  · simp_all

/-- A text without CRLF, followed by CRLF, is the line that is split off. -/
theorem splitLine_append {line : Bytes} (h : NoCrlf line) (rest : Bytes) :
    splitLine (line ++ crlf ++ rest) = some (line, rest) := by
  induction line with
  | nil => rfl
  | cons b line ih =>
      have hline : NoCrlf line := fun hsub =>
        h (hsub.trans (List.suffix_cons b line).isInfix)
      have hhead : ¬ (b = 13 ∧ (line ++ crlf ++ rest).head? = some 10) := by
        rintro ⟨rfl, hnext⟩
        cases line with
        | nil => simp [crlf] at hnext
        | cons c line =>
            simp only [List.cons_append, List.head?_cons, Option.some.injEq] at hnext
            subst hnext
            exact h ⟨[], line, rfl⟩
      rw [List.cons_append, List.cons_append, splitLine_cons hhead, ih hline]
      rfl

/-- A line without CRLF is read up to the one behind it. -/
theorem takeLine_append {line : Bytes} (h : NoCrlf line) (rest : Bytes) :
    takeLine (line ++ crlf ++ rest) = .ok (line, rest) := by
  simp only [takeLine, splitLine_append h]

/-- A byte string without LF holds no CRLF. -/
theorem noCrlf_of_not_mem {line : Bytes} (h : (10 : UInt8) ∉ line) : NoCrlf line := by
  intro hsub
  exact h (hsub.subset (by simp [crlf]))

/-- A text without CRLF is read whole. -/
theorem takeUtf8Line_append {text : String} (h : NoCrlf (asBytes text)) (rest : Bytes) :
    takeUtf8Line (asBytes text ++ crlf ++ rest) = .ok (text, rest) := by
  simp only [takeUtf8Line, takeLine_append h, bind, Except.bind, fromUtf8_asBytes]

/-! ## Printed integers -/

/-- A printed integer is a line of text. -/
theorem lf_not_mem_toString (n : Int) : (10 : UInt8) ∉ asBytes (toString n) := by
  have hlf : (10 : UInt8) = UInt8.ofNat '\n'.toNat := rfl
  rw [hlf, mem_asBytes_ascii_iff (by decide)]
  exact not_mem_toString_int (by decide) (by decide)

/-- A number of 64 bits is read back. -/
theorem parseI64_toString {n : Int} (hmin : -2 ^ 63 ≤ n) (hmax : n ≤ 2 ^ 63 - 1) :
    parseI64 (toString n) = .ok (Int64.ofInt n) := by
  rw [parseI64, parseInteger_toString (by omega) (by omega) hmin hmax]
  rfl

/-- A number in bounds is not wrapped. -/
theorem Int64.toInt_ofInt_of_bounds {n : Int} (hmin : -2 ^ 63 ≤ n) (hmax : n ≤ 2 ^ 63 - 1) :
    (Int64.ofInt n).toInt = n := by
  rw [Int64.toInt_ofInt, Int.bmod_eq_of_le]
  · simp [Int64.size]
    omega
  · simp [Int64.size]
    omega

/-- A line with a number is read whole. -/
theorem takeI64Line_append {n : Int} (hmin : -2 ^ 63 ≤ n) (hmax : n ≤ 2 ^ 63 - 1) (rest : Bytes) :
    takeI64Line (asBytes (toString n) ++ crlf ++ rest) = .ok (Int64.ofInt n, rest) := by
  have hline := takeUtf8Line_append (noCrlf_of_not_mem (lf_not_mem_toString n)) rest
  simp only [takeI64Line, hline, bind, Except.bind, parseI64_toString hmin hmax]

/-! ## Pairs -/

/-- Group a flat list into consecutive pairs. -/
def pairUp : List Frame → List (Frame × Frame)
  | key :: value :: rest => (key, value) :: pairUp rest
  | _ => []

/-- Pairs are put together again. -/
theorem pairUp_flatMap (pairs : List (Frame × Frame)) :
    pairUp (pairs.flatMap fun pair => [pair.1, pair.2]) = pairs := by
  induction pairs with
  | nil => rfl
  | cons pair pairs ih => simp [pairUp, ih]

/-- Pairs have twice as many members. -/
theorem length_flatten_pairs (pairs : List (Frame × Frame)) :
    (pairs.flatMap fun pair => [pair.1, pair.2]).length = 2 * pairs.length := by
  induction pairs with
  | nil => rfl
  | cons pair pairs ih =>
      simp only [List.flatMap_cons, List.length_append, ih, List.length_cons, List.length_nil]
      omega

/-- The members of a pair are from the list. -/
theorem mem_pairUp {items : List Frame} {pair : Frame × Frame} (h : pair ∈ pairUp items) :
    pair.1 ∈ items ∧ pair.2 ∈ items := by
  induction items using pairUp.induct with
  | case1 key value rest ih =>
      rcases List.mem_cons.mp h with rfl | hrest
      · simp
      · obtain ⟨hkey, hvalue⟩ := ih hrest
        simp [hkey, hvalue]
  | case2 items hshort => simp [pairUp] at h

/-- Pairs are read exactly as twice as many frames. -/
theorem readPairs_eq (parse : Parser Frame) (n : Nat) (input : Bytes) :
    readPairs parse n input =
      (readItems parse (2 * n) input).map fun (items, rest) => (pairUp items, rest) := by
  induction n generalizing input with
  | zero => rfl
  | succ n ih =>
      rw [show 2 * (n + 1) = 2 * n + 1 + 1 by ring]
      simp only [readPairs, readItems, bind, Except.bind, ih]
      cases parse input with
      | error e => rfl
      | ok first =>
          cases hsecond : parse first.2 with
          | error e => simp [hsecond, Except.map]
          | ok second =>
              simp only [hsecond]
              cases readItems parse (2 * n) second.2 with
              | error e => rfl
              | ok items => rfl

/-! ## Announced lengths -/

/-- A line that the parser reads as one integer. -/
def Announces (line : Bytes) (n : Int) : Prop :=
  ∃ len : Int64, len.toInt = n ∧ ∀ more, takeI64Line (line ++ crlf ++ more) = .ok (len, more)

/-- The decimal digits of a number announce it. -/
theorem announces_toString {n : Int} (hmin : -2 ^ 63 ≤ n) (hmax : n ≤ 2 ^ 63 - 1) :
    Announces (asBytes (toString n)) n :=
  ⟨Int64.ofInt n, Int64.toInt_ofInt_of_bounds hmin hmax, takeI64Line_append hmin hmax⟩

/-- A natural number is a length. -/
theorem usizeLen_of_toInt {len : Int64} {n : Nat} (h : len.toInt = n) : usizeLen len = .ok n := by
  rw [usizeLen, h, if_neg (by omega), Int.toNat_natCast]

/-- A blob is read whole, whatever follows it. -/
theorem takeBlob_append {len : Int64} {body : Bytes} (hlen : len.toInt = body.length)
    (rest : Bytes) : takeBlob len (body ++ crlf ++ rest) = .ok (body, rest) := by
  have hdrop : (body ++ crlf ++ rest).drop body.length = 13 :: 10 :: rest := by
    rw [List.append_assoc, List.drop_left']
    · rfl
    · rfl
  have htake : (body ++ crlf ++ rest).take body.length = body := by
    rw [List.append_assoc, List.take_left']
    rfl
  have hlength : (body ++ crlf ++ rest).length = body.length + 2 + rest.length := by
    simp [crlf]
    omega
  rw [takeBlob, usizeLen_of_toInt hlen, ok_bind, if_neg (by rw [hlength]; omega), hdrop, htake]
  rfl

/-- An announced count that fits in the remaining bytes is accepted. -/
theorem validateSequenceLen_of_toInt {len : Int64} {n minimumBytes : Nat} {input : Bytes}
    (hlen : len.toInt = n) (hpos : 0 < minimumBytes) (hfits : minimumBytes * n ≤ input.length) :
    validateSequenceLen len minimumBytes input = .ok n := by
  have hle : n ≤ input.length / minimumBytes := by
    rw [Nat.le_div_iff_mul_le hpos, Nat.mul_comm]
    exact hfits
  rw [validateSequenceLen, usizeLen_of_toInt hlen, ok_bind, if_neg (by omega)]

section Announced

variable {line : Bytes} {n : Nat}

/-- The length -1 announces no blob. -/
theorem parseOptionalBlob_null (h : Announces line (-1)) (rest : Bytes) :
    parseOptionalBlob (line ++ crlf ++ rest) = .ok (none, rest) := by
  obtain ⟨len, hlen, hline⟩ := h
  simp only [parseOptionalBlob, hline, ok_bind]
  rw [if_pos hlen]

/-- An announced blob is read whole. -/
theorem parseOptionalBlob_append {body : Bytes} (h : Announces line body.length) (rest : Bytes) :
    parseOptionalBlob (line ++ crlf ++ (body ++ crlf ++ rest)) = .ok (some body, rest) := by
  obtain ⟨len, hlen, hline⟩ := h
  simp only [parseOptionalBlob, hline, ok_bind]
  rw [if_neg (by omega), takeBlob_append hlen, ok_bind]

/-- So is one that must be there. -/
theorem parseRequiredBlob_append {body : Bytes} (h : Announces line body.length) (rest : Bytes) :
    parseRequiredBlob (line ++ crlf ++ (body ++ crlf ++ rest)) = .ok (body, rest) := by
  obtain ⟨len, hlen, hline⟩ := h
  simp only [parseRequiredBlob, hline, ok_bind]
  rw [if_neg (by omega), takeBlob_append hlen]

variable {parse : Parser Frame}

/-- The length -1 announces no sequence. -/
theorem parseOptionalSequence_null {build : Option (List Frame) → Frame} (h : Announces line (-1))
    (rest : Bytes) :
    parseOptionalSequence parse build (line ++ crlf ++ rest) = .ok (build none, rest) := by
  obtain ⟨len, hlen, hline⟩ := h
  simp only [parseOptionalSequence, hline, ok_bind]
  rw [if_pos hlen]

/-- After its line an aggregate reads the announced number of frames. -/
theorem parseOptionalSequence_eq {build : Option (List Frame) → Frame} {input : Bytes}
    (h : Announces line n) (hfits : 3 * n ≤ input.length) :
    parseOptionalSequence parse build (line ++ crlf ++ input) =
      (readItems parse n input).map fun (items, rest) => (build (some items), rest) := by
  obtain ⟨len, hlen, hline⟩ := h
  simp only [parseOptionalSequence, hline, ok_bind, readSequence]
  rw [if_neg (by omega), validateSequenceLen_of_toInt hlen (by omega) hfits, ok_bind]
  cases readItems parse n input <;> rfl

/-- An announced sequence is read frame by frame, if it can fit. -/
theorem parseSequence_eq {build : List Frame → Frame} {input : Bytes}
    (h : Announces line n) (hfits : 3 * n ≤ input.length) :
    parseSequence parse build (line ++ crlf ++ input) =
      (readItems parse n input).map fun (items, rest) => (build items, rest) := by
  obtain ⟨len, hlen, hline⟩ := h
  simp only [parseSequence, hline, ok_bind, readSequence]
  rw [if_neg (by omega), validateSequenceLen_of_toInt hlen (by omega) hfits, ok_bind]
  cases readItems parse n input <;> rfl

/-- A map reads twice as many frames as its line announces. -/
theorem parseMapLike_eq {build : List (Frame × Frame) → Frame} {input : Bytes}
    (h : Announces line n) (hfits : 6 * n ≤ input.length) :
    parseMapLike parse build (line ++ crlf ++ input) =
      (readItems parse (2 * n) input).map fun (items, rest) => (build (pairUp items), rest) := by
  obtain ⟨len, hlen, hline⟩ := h
  simp only [parseMapLike, hline, ok_bind]
  rw [if_neg (by omega), validateSequenceLen_of_toInt hlen (by omega) hfits, ok_bind, readPairs_eq]
  cases readItems parse (2 * n) input <;> rfl

end Announced

end Resp
end EvilResp
