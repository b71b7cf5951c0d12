import EvilResp.Resp.Parser

/-!
# The incremental frame reader

The reader copies one frame from a stream into a buffer without parsing it.  It
keeps, for every open nesting level, the number of children still unread, and
only looks at kind bytes and length lines.  One iteration of its loop is
{lit}`readStep`; the stack lists the innermost level first.

Main results:

- Theorem {lit}`readStep_measure`: every iteration consumes input or closes a
  level, so the loop terminates on every stream.
- Theorem {lit}`readStep_append`: an iteration that succeeds does the same on
  every longer stream.
- Theorem {lit}`readRawFrame_append`: a frame that was read is read again in front
  of any continuation.
-/

namespace EvilResp
namespace Resp

open Library
open EvilResp.Resp.Frame (byteOf crlf)

/-! ## Stream primitives -/

/-- The error for a stream that is no frame. -/
def invalidData (message : String) : IoError :=
  { kind := .invalidData, message }

/-- Bytes up to and including the first LF, at most {lit}`limit` of them, and the
bytes that stay unread. -/
def readUntil : Bytes → Nat → Bytes × Bytes
  | b :: rest, limit + 1 =>
      if b = 10 then ([b], rest)
      else
        let (line, rest) := readUntil rest limit
        (b :: line, rest)
  | input, _ => ([], input)

/-- Read one line.  Returns the line without its terminator, the extended
buffer and the unread bytes. -/
def readLineRaw (raw input : Bytes) : Except IoError (Bytes × Bytes × Bytes) :=
  let (line, input) := readUntil input (maxFrameBytes - raw.length)
  if line = [] then
    .error { kind := .unexpectedEof, message := "stream ended before RESP line terminator" }
  else if crlf <:+ line then .ok (line.take (line.length - 2), raw ++ line, input)
  else .error (invalidData "RESP line missing CRLF terminator")

/-- A length line.  {lit}`-1` is a null for the kinds that allow one. -/
def parseLen (line : Bytes) (nullable : Bool) : Except IoError (Option Nat) :=
  match fromUtf8 line with
  | .error error => .error (invalidData error.message)
  | .ok value =>
      match parseI64 value with
      | .error error => .error (invalidData error.message)
      | .ok len =>
          if nullable ∧ len.toInt = -1 then .ok none
          else if len.toInt < 0 then
            .error (invalidData "out of range integral type conversion attempted")
          else .ok (some len.toInt.toNat)

/-- Copy the body of a blob and its terminator. -/
def readBlobBody (len : Nat) (raw input : Bytes) : Except IoError (Bytes × Bytes) :=
  if len + 2 ≥ 2 ^ 64 then .error (invalidData "RESP blob length overflow")
  else if len + 2 > maxFrameBytes - raw.length then
    .error (invalidData "RESP frame exceeds 64 MiB")
  else
    let body := input.take (len + 2)
    if body.length ≠ len + 2 then
      .error { kind := .unexpectedEof, message := "truncated RESP blob" }
    else if crlf <:+ raw ++ body then .ok (raw ++ body, input.drop (len + 2))
    else .error (invalidData "bulk body missing CRLF terminator")

/-- The number of children an aggregate opens.  Even the shortest child needs a
kind byte and CRLF. -/
def childCount (len : Nat) (paired : Bool) (raw : Bytes) : Except IoError Nat :=
  if paired ∧ len * 2 ≥ 2 ^ 64 then .error (invalidData "RESP aggregate length overflow")
  else
    let children := if paired then len * 2 else len
    if children > (maxFrameBytes - raw.length) / 3 then
      .error (invalidData "RESP frame exceeds 64 MiB")
    else .ok children

/-- The kinds whose line is the length of a body. -/
def isBlobKind (kind : UInt8) : Bool :=
  asChar kind = '$' ∨ asChar kind = '!' ∨ asChar kind = '='

/-- The kinds whose line is a number of children or of pairs of children. -/
def isAggregateKind (kind : UInt8) : Bool :=
  asChar kind = '*' ∨ asChar kind = '~' ∨ asChar kind = '>' ∨ asChar kind = '%' ∨ asChar kind = '|'

/-- The kinds of frames that announce pairs. -/
def isPairedKind (kind : UInt8) : Bool :=
  asChar kind = '%' ∨ asChar kind = '|'

/-- Read the kind byte, the line and, for a blob, the body of one frame.  Returns
the extended buffer, the unread bytes and the number of children to read next. -/
def readHead (raw : Bytes) : Bytes → Except IoError (Bytes × Bytes × Nat)
  | [] => .error { kind := .unexpectedEof, message := "early eof" }
  | kind :: input => do
      let (line, raw, input) ← readLineRaw (raw ++ [kind]) input
      if isBlobKind kind then
        match ← parseLen line (asChar kind = '$') with
        | none => .ok (raw, input, 0)
        | some len =>
            let (raw, input) ← readBlobBody len raw input
            .ok (raw, input, 0)
      else if isAggregateKind kind then
        match ← parseLen line (asChar kind = '*') with
        | none => .ok (raw, input, 0)
        | some len =>
            let children ← childCount len (isPairedKind kind) raw
            .ok (raw, input, children)
      else .ok (raw, input, 0)

/-! ## The loop -/

/-- The buffer, the unread children of every open level, and the unread bytes. -/
structure ReadState where
  raw : Bytes
  pending : List Nat
  input : Bytes

/-- One iteration of the reader's loop. -/
def readStep (s : ReadState) : Except IoError ReadState :=
  match s.pending with
  | [] => .ok s
  | 0 :: levels => .ok { s with pending := levels }
  | (remaining + 1) :: levels =>
      if levels.length + 1 > maxFrameDepth then
        .error (invalidData "RESP nesting exceeds 128 levels")
      else if s.raw.length = maxFrameBytes then
        .error (invalidData "RESP frame exceeds 64 MiB")
      else do
        let (raw, input, children) ← readHead s.raw s.input
        let levels := remaining :: levels
        .ok { raw, input, pending := if children > 0 then children :: levels else levels }

/-- Unread bytes count twice, so that opening a level is paid for by the line
that opened it. -/
def ReadState.measure (s : ReadState) : Nat :=
  2 * s.input.length + s.pending.length

/-! ## What one head consumes -/

/-- A terminated line holds its only LF at the end, and does not depend on what
follows it. -/
theorem readUntil_eq_of_lf {input line rest : Bytes} {limit : Nat}
    (h : readUntil input limit = (line ++ [10], rest)) :
    (10 : UInt8) ∉ line ∧ line.length < limit ∧ input = line ++ 10 :: rest := by
  induction input generalizing limit line with
  | nil => cases limit <;> simp [readUntil] at h
  | cons b tail ih =>
      cases limit with
      | zero => simp [readUntil] at h
      | succ limit =>
          simp only [readUntil] at h
          split at h <;> rename_i hb
          · obtain ⟨hline, rfl⟩ := Prod.mk.inj h
            cases line with
            | nil => simp [hb]
            | cons c line => simp at hline
          · obtain ⟨hline, hrest⟩ := Prod.mk.inj h
            cases line with
            | nil => simp at hline; exact absurd hline.1 hb
            | cons c line =>
                simp only [List.cons_append, List.cons.injEq] at hline
                obtain ⟨rfl, hline⟩ := hline
                obtain ⟨hmem, hlen, hinput⟩ := ih (Prod.ext hline hrest)
                refine ⟨?_, by simp; omega, by simp [hinput]⟩
                simp [hmem, Ne.symm hb]

/-- A line without LF is read up to its terminator when it fits. -/
theorem readUntil_line {line : Bytes} (h : (10 : UInt8) ∉ line) {limit : Nat}
    (hlimit : line.length < limit) (rest : Bytes) :
    readUntil (line ++ 10 :: rest) limit = (line ++ [10], rest) := by
  induction line generalizing limit with
  | nil =>
      obtain ⟨limit, rfl⟩ := Nat.exists_eq_succ_of_ne_zero (by omega : limit ≠ 0)
      simp [readUntil]
  | cons b line ih =>
      obtain ⟨limit, rfl⟩ := Nat.exists_eq_succ_of_ne_zero (by simp at hlimit; omega : limit ≠ 0)
      simp only [List.mem_cons, not_or] at h
      simp only [List.cons_append, readUntil, Ne.symm h.1, if_false]
      rw [ih h.2 (by simpa using hlimit)]

/-- What a line that was read looks like. -/
theorem readLineRaw_eq_ok_iff {raw input line raw' rest : Bytes} :
    readLineRaw raw input = .ok (line, raw', rest) ↔
      (10 : UInt8) ∉ line ∧ raw.length + line.length + 2 ≤ maxFrameBytes ∧
        input = line ++ crlf ++ rest ∧ raw' = raw ++ line ++ crlf := by
  have hcrlf : ∀ l : Bytes, l ++ crlf = (l ++ [13]) ++ [10] := by simp [crlf]
  constructor
  · intro h
    simp only [readLineRaw] at h
    split_ifs at h with hempty hterm
    obtain ⟨body, hbody⟩ := hterm
    rw [← hbody, hcrlf] at h
    simp only [Except.ok.injEq, Prod.mk.injEq, List.length_append, List.length_cons,
      List.length_nil] at h
    obtain ⟨hline, hraw, hrest⟩ := h
    have hread : readUntil input (maxFrameBytes - raw.length) = ((body ++ [13]) ++ [10], rest) := by
      rw [← hcrlf, hbody, ← hrest]
    obtain ⟨hmem, hlen, hinput⟩ := readUntil_eq_of_lf hread
    have hbl : body = line := by
      rw [← hline]
      simp
    subst hbl
    simp only [List.length_append, List.length_cons, List.length_nil] at hlen
    refine ⟨fun hin => hmem (List.mem_append_left _ hin), by omega, ?_, ?_⟩
    · simp [hinput, crlf]
    · simp [← hraw, crlf]
  · rintro ⟨hmem, hlen, rfl, rfl⟩
    have hread : readUntil (line ++ crlf ++ rest) (maxFrameBytes - raw.length) =
        (line ++ crlf, rest) := by
      have hline : line ++ crlf ++ rest = (line ++ [13]) ++ 10 :: rest := by simp [crlf]
      rw [hline, readUntil_line (by simp [hmem]) (by simp; omega), hcrlf]
    simp only [readLineRaw, hread]
    rw [if_neg (by simp [crlf]), if_pos (List.suffix_append _ _)]
    simp [crlf]

theorem readBlobBody_eq_ok_iff {len : Nat} {raw input raw' rest : Bytes} :
    readBlobBody len raw input = .ok (raw', rest) ↔
      raw.length + len + 2 ≤ maxFrameBytes ∧
        ∃ body, body.length = len ∧ input = body ++ crlf ++ rest ∧ raw' = raw ++ body ++ crlf := by
  have hmax : maxFrameBytes < 2 ^ 64 := by decide
  constructor
  · intro h
    simp only [readBlobBody] at h
    split_ifs at h with hover hsize hshort hterm
    simp only [Except.ok.injEq, Prod.mk.injEq] at h
    obtain ⟨rfl, rfl⟩ := h
    have hlength : (input.take (len + 2)).length = len + 2 := not_not.mp hshort
    obtain ⟨front, hfront⟩ := hterm
    have hsuffix : crlf <:+ input.take (len + 2) :=
      List.suffix_of_suffix_length_le ⟨front, hfront⟩ (List.suffix_append _ _)
        (by rw [hlength]; simp [crlf])
    obtain ⟨body, hbody⟩ := hsuffix
    refine ⟨by omega, body, ?_, ?_, ?_⟩
    · have := congrArg List.length hbody
      rw [hlength] at this
      simpa [crlf] using this
    · rw [hbody, List.take_append_drop]
    · rw [← hbody, List.append_assoc]
  · rintro ⟨hsize, body, rfl, rfl, rfl⟩
    have hlen : (body ++ crlf).length = body.length + 2 := by simp [crlf]
    have htake : (body ++ crlf ++ rest).take (body.length + 2) = body ++ crlf := by
      rw [← hlen, List.take_left']
      rfl
    have hdrop : (body ++ crlf ++ rest).drop (body.length + 2) = rest := by
      rw [← hlen, List.drop_left']
      rfl
    simp only [readBlobBody, htake, hdrop, hlen]
    rw [if_neg (by omega), if_neg (by omega), if_neg (by simp), if_pos, List.append_assoc]
    exact (List.suffix_append body crlf).trans (List.suffix_append raw _)

/-- The bytes one iteration copies, with the number of children they announce. -/
inductive IsHead : Bytes → Nat → Prop where
  | scalar {kind : UInt8} {line : Bytes} (blob : isBlobKind kind = false)
      (aggregate : isAggregateKind kind = false) (lf : (10 : UInt8) ∉ line) :
      IsHead (kind :: line ++ crlf) 0
  | nullBlob {kind : UInt8} {line : Bytes} (blob : isBlobKind kind = true)
      (lf : (10 : UInt8) ∉ line) (len : parseLen line (asChar kind = '$') = .ok none) :
      IsHead (kind :: line ++ crlf) 0
  | blob {kind : UInt8} {line body : Bytes} (blob : isBlobKind kind = true)
      (lf : (10 : UInt8) ∉ line)
      (len : parseLen line (asChar kind = '$') = .ok (some body.length)) :
      IsHead (kind :: line ++ crlf ++ body ++ crlf) 0
  | nullAggregate {kind : UInt8} {line : Bytes} (blob : isBlobKind kind = false)
      (aggregate : isAggregateKind kind = true) (lf : (10 : UInt8) ∉ line)
      (len : parseLen line (asChar kind = '*') = .ok none) :
      IsHead (kind :: line ++ crlf) 0
  | aggregate {kind : UInt8} {line : Bytes} {count : Nat} (blob : isBlobKind kind = false)
      (aggregate : isAggregateKind kind = true) (lf : (10 : UInt8) ∉ line)
      (len : parseLen line (asChar kind = '*') = .ok (some count)) :
      IsHead (kind :: line ++ crlf) (if isPairedKind kind then count * 2 else count)

theorem IsHead.length_ge {head : Bytes} {children : Nat} (h : IsHead head children) :
    3 ≤ head.length := by
  cases h <;> (simp [crlf]; try omega)

theorem childCount_eq_ok_iff {len : Nat} {paired : Bool} {raw : Bytes} {children : Nat}
    (hraw : raw.length ≤ maxFrameBytes) :
    childCount len paired raw = .ok children ↔
      children = (if paired then len * 2 else len) ∧ raw.length + 3 * children ≤ maxFrameBytes := by
  have hmax : maxFrameBytes < 2 ^ 64 := by decide
  have hbound : ∀ total : Nat, total > (maxFrameBytes - raw.length) / 3 ↔
      ¬ raw.length + 3 * total ≤ maxFrameBytes := by
    intro total
    omega
  simp only [childCount, hbound]
  generalize htotal : (if paired = true then len * 2 else len) = total
  by_cases hfits : raw.length + 3 * total ≤ maxFrameBytes
  · have hnarrow : ¬ (paired = true ∧ len * 2 ≥ 2 ^ 64) := by
      rintro ⟨hpaired, hwide⟩
      rw [if_pos hpaired] at htotal
      omega
    rw [if_neg hnarrow, if_neg (not_not.mpr hfits), Except.ok.injEq]
    constructor
    · rintro rfl
      exact ⟨rfl, hfits⟩
    · exact fun h => h.1.symm
  · have hno : ¬ (children = total ∧ raw.length + 3 * children ≤ maxFrameBytes) := by
      rintro ⟨rfl, h⟩
      exact hfits h
    rw [if_pos hfits]
    split_ifs <;> simpa using hno

/-- What one iteration copies is one head. -/
theorem readHead_isHead {raw input raw' rest : Bytes} {children : Nat}
    (h : readHead raw input = .ok (raw', rest, children)) :
    ∃ head, IsHead head children ∧ input = head ++ rest ∧ raw' = raw ++ head ∧
      raw'.length + 3 * children ≤ maxFrameBytes := by
  cases input with
  | nil => simp [readHead] at h
  | cons kind input =>
      simp only [readHead, bind_eq_ok_iff, Prod.exists] at h
      obtain ⟨line, raw₁, input₁, hline, h⟩ := h
      obtain ⟨hlf, hsize, rfl, rfl⟩ := readLineRaw_eq_ok_iff.mp hline
      have hraw : (raw ++ [kind] ++ line ++ crlf).length ≤ maxFrameBytes := by
        simp [crlf] at hsize ⊢
        omega
      split at h <;> rename_i hblob
      · obtain ⟨len, hlen, h⟩ := bind_eq_ok_iff.mp h
        cases len with
        | none =>
            simp only [Except.ok.injEq, Prod.mk.injEq] at h
            obtain ⟨rfl, rfl, rfl⟩ := h
            exact ⟨_, .nullBlob hblob hlf hlen, by simp, by simp, by omega⟩
        | some len =>
            simp only [bind_eq_ok_iff, Prod.exists] at h
            obtain ⟨raw₂, input₂, hbody, h⟩ := h
            simp only [Except.ok.injEq, Prod.mk.injEq] at h
            obtain ⟨rfl, rfl, rfl⟩ := h
            obtain ⟨hfits, body, rfl, rfl, rfl⟩ := readBlobBody_eq_ok_iff.mp hbody
            refine ⟨_, .blob hblob hlf hlen, by simp, by simp, ?_⟩
            simp [crlf] at hfits ⊢
            omega
      · simp only [Bool.not_eq_true] at hblob
        split at h <;> rename_i haggregate
        · obtain ⟨len, hlen, h⟩ := bind_eq_ok_iff.mp h
          cases len with
          | none =>
              simp only [Except.ok.injEq, Prod.mk.injEq] at h
              obtain ⟨rfl, rfl, rfl⟩ := h
              exact ⟨_, .nullAggregate hblob haggregate hlf hlen, by simp, by simp, by omega⟩
          | some len =>
              obtain ⟨count, hcount, h⟩ := bind_eq_ok_iff.mp h
              simp only [Except.ok.injEq, Prod.mk.injEq] at h
              obtain ⟨rfl, rfl, rfl⟩ := h
              obtain ⟨rfl, hfits⟩ := (childCount_eq_ok_iff hraw).mp hcount
              exact ⟨_, .aggregate hblob haggregate hlf hlen, by simp, by simp, hfits⟩
        · simp only [Bool.not_eq_true] at haggregate
          simp only [Except.ok.injEq, Prod.mk.injEq] at h
          obtain ⟨rfl, rfl, rfl⟩ := h
          exact ⟨_, .scalar hblob haggregate hlf, by simp, by simp, by omega⟩

/-- A head that fits, with the shortest possible children, is copied. -/
theorem readHead_append {raw head : Bytes} {children : Nat} (hhead : IsHead head children)
    (hsize : (raw ++ head).length + 3 * children ≤ maxFrameBytes) (rest : Bytes) :
    readHead raw (head ++ rest) = .ok (raw ++ head, rest, children) := by
  have hread : ∀ kind line more, (10 : UInt8) ∉ line →
      (raw ++ (kind :: line ++ crlf)).length ≤ maxFrameBytes →
      readLineRaw (raw ++ [kind]) (line ++ (crlf ++ more)) =
        .ok (line, raw ++ kind :: (line ++ crlf), more) := by
    intro kind line more hlf hfits
    refine readLineRaw_eq_ok_iff.mpr ⟨hlf, ?_, by simp, by simp⟩
    simp [crlf] at hfits ⊢
    omega
  cases hhead with
  | @scalar kind line hblob haggregate hlf =>
      have hline := hread kind line rest hlf (by simpa using hsize)
      simp [readHead, hline, hblob, haggregate]
  | @nullBlob kind line hblob hlf hlen =>
      have hline := hread kind line rest hlf (by simpa using hsize)
      simp only [List.cons_append, List.append_assoc, readHead, hline, ok_bind, hblob, if_true,
        hlen]
  | @blob kind line body hblob hlf hlen =>
      have hline := hread kind line (body ++ (crlf ++ rest)) hlf (by
        simp [crlf] at hsize ⊢
        omega)
      have hbody : readBlobBody body.length (raw ++ kind :: (line ++ crlf))
          (body ++ (crlf ++ rest)) =
            .ok (raw ++ kind :: (line ++ (crlf ++ (body ++ crlf))), rest) := by
        refine readBlobBody_eq_ok_iff.mpr ⟨?_, body, rfl, by simp, by simp⟩
        simp [crlf] at hsize ⊢
        omega
      simp only [List.cons_append, List.append_assoc, readHead, hline, ok_bind, hblob, if_true,
        hlen, hbody]
  | @nullAggregate kind line hblob haggregate hlf hlen =>
      have hline := hread kind line rest hlf (by simpa using hsize)
      simp only [List.cons_append, List.append_assoc, readHead, hline, ok_bind, hblob,
        Bool.false_eq_true, if_false, haggregate, if_true, hlen]
  | @aggregate kind line count hblob haggregate hlf hlen =>
      have hline := hread kind line rest hlf (by omega)
      have hcount : childCount count (isPairedKind kind) (raw ++ kind :: (line ++ crlf)) =
          .ok (if isPairedKind kind then count * 2 else count) := by
        refine (childCount_eq_ok_iff ?_).mpr ⟨rfl, hsize⟩
        have : (raw ++ kind :: (line ++ crlf)).length ≤ _ := Nat.le_add_right _ _ |>.trans hsize
        exact this
      simp only [List.cons_append, List.append_assoc, readHead, hline, ok_bind, hblob,
        Bool.false_eq_true, if_false, haggregate, if_true, hlen, hcount]

/-! ## Termination and extension -/

/-- The three things one iteration can do: nothing, close a level, or copy one
head and open a level for its children. -/
theorem readStep_cases {s s' : ReadState} (h : readStep s = .ok s') :
    (s.pending = [] ∧ s' = s) ∨
    (∃ levels, s.pending = 0 :: levels ∧ s' = { s with pending := levels }) ∨
    (∃ remaining levels head children rest,
      s.pending = (remaining + 1) :: levels ∧ levels.length < maxFrameDepth ∧
      s.raw.length ≠ maxFrameBytes ∧ IsHead head children ∧ s.input = head ++ rest ∧
      (s.raw ++ head).length + 3 * children ≤ maxFrameBytes ∧
      s' = { raw := s.raw ++ head, input := rest,
             pending := if children > 0 then children :: remaining :: levels
                        else remaining :: levels }) := by
  unfold readStep at h
  split at h <;> rename_i hpending
  · exact .inl ⟨hpending, (Except.ok.inj h).symm⟩
  · exact .inr (.inl ⟨_, hpending, (Except.ok.inj h).symm⟩)
  · split_ifs at h with hdepth hsize
    simp only [bind_eq_ok_iff, Prod.exists] at h
    obtain ⟨raw, rest, children, hhead, h⟩ := h
    obtain ⟨head, hshape, hinput, rfl, hfits⟩ := readHead_isHead hhead
    exact .inr (.inr ⟨_, _, head, children, rest, hpending, by omega, hsize, hshape, hinput,
      hfits, (Except.ok.inj h).symm⟩)

/-- Every iteration consumes input or closes a level. -/
theorem readStep_measure {s s' : ReadState} (hpending : s.pending ≠ [])
    (h : readStep s = .ok s') : s'.measure < s.measure := by
  rcases readStep_cases h with ⟨hnil, -⟩ | ⟨levels, hlevels, rfl⟩ |
    ⟨remaining, levels, head, children, rest, hlevels, -, -, hhead, hinput, -, rfl⟩
  · exact absurd hnil hpending
  · simp [ReadState.measure, hlevels]
  · have hlen := hhead.length_ge
    simp only [ReadState.measure, hlevels, hinput, List.length_append]
    split_ifs <;> simp <;> omega

/-- Iterate until every level is closed. -/
def readLoop (s : ReadState) : Except IoError ReadState :=
  if _hpending : s.pending = [] then .ok s
  else
    match _hstep : readStep s with
    | .error error => .error error
    | .ok s' => readLoop s'
termination_by s.measure
decreasing_by exact readStep_measure ‹_› ‹_›

/-- Read one frame.  Returns its bytes and the bytes that stay unread. -/
def readRawFrame (input : Bytes) : Except IoError (Bytes × Bytes) := do
  let s ← readLoop { raw := [], pending := [1], input }
  .ok (s.raw, s.input)

theorem readLoop_done {s : ReadState} (h : s.pending = []) : readLoop s = .ok s := by
  rw [readLoop, dif_pos h]

theorem readLoop_step {s s' : ReadState} (hpending : s.pending ≠ []) (h : readStep s = .ok s') :
    readLoop s = readLoop s' := by
  rw [readLoop, dif_neg hpending]
  split <;> rename_i hstep
  · rw [h] at hstep
    cases hstep
  · rw [h] at hstep
    rw [Except.ok.inj hstep]

/-- A loop that succeeds has finished, or succeeded in one more iteration. -/
theorem readLoop_cases {s s' : ReadState} (h : readLoop s = .ok s') :
    (s.pending = [] ∧ s' = s) ∨
      (s.pending ≠ [] ∧ ∃ next, readStep s = .ok next ∧ readLoop next = .ok s') := by
  by_cases hpending : s.pending = []
  · rw [readLoop_done hpending] at h
    exact .inl ⟨hpending, (Except.ok.inj h).symm⟩
  · rw [readLoop, dif_neg hpending] at h
    split at h <;> rename_i hstep
    · cases h
    · exact .inr ⟨hpending, _, hstep, h⟩

/-- The state with more unread bytes at the end. -/
def ReadState.extend (s : ReadState) (more : Bytes) : ReadState :=
  { s with input := s.input ++ more }

/-- Closing a level looks at nothing but the stack. -/
theorem readStep_close {s : ReadState} {levels : List Nat} (h : s.pending = 0 :: levels) :
    readStep s = .ok { s with pending := levels } := by
  unfold readStep
  rw [h]

/-- Copying a head opens a level when the head announces children. -/
theorem readStep_head {s : ReadState} {remaining children : Nat} {levels : List Nat}
    {head rest : Bytes} (hpending : s.pending = (remaining + 1) :: levels)
    (hdepth : levels.length < maxFrameDepth) (hraw : s.raw.length ≠ maxFrameBytes)
    (hhead : IsHead head children) (hinput : s.input = head ++ rest)
    (hsize : (s.raw ++ head).length + 3 * children ≤ maxFrameBytes) :
    readStep s = .ok { raw := s.raw ++ head, input := rest,
                       pending := if children > 0 then children :: remaining :: levels
                                  else remaining :: levels } := by
  unfold readStep
  rw [hpending]
  simp only
  rw [if_neg (by omega), if_neg hraw, hinput, readHead_append hhead hsize]
  rfl

/-- A head without children is one frame. -/
theorem readRawFrame_of_head {head : Bytes} (hhead : IsHead head 0)
    (hsize : head.length ≤ maxFrameBytes) (rest : Bytes) :
    readRawFrame (head ++ rest) = .ok (head, rest) := by
  have hmax : ([] : Bytes).length ≠ maxFrameBytes := by decide
  have hdepth : ([] : List Nat).length < maxFrameDepth := by decide
  have hstep := readStep_head (s := { raw := [], pending := [1], input := head ++ rest }) rfl hdepth
    hmax hhead rfl (by simpa using hsize)
  rw [if_neg (lt_irrefl 0)] at hstep
  rw [readRawFrame, readLoop_step (by simp) hstep, readLoop_step (by simp) (readStep_close rfl),
    readLoop_done rfl, ok_bind]
  rfl

/-- An iteration that succeeds does the same on every longer stream. -/
theorem readStep_append {s s' : ReadState} (h : readStep s = .ok s') (more : Bytes) :
    readStep (s.extend more) = .ok (s'.extend more) := by
  rcases readStep_cases h with ⟨hnil, rfl⟩ | ⟨levels, hlevels, rfl⟩ |
    ⟨remaining, levels, head, children, rest, hlevels, hdepth, hraw, hhead, hinput, hfits, rfl⟩
  · simp [readStep, ReadState.extend, hnil]
  · exact readStep_close hlevels
  · exact readStep_head hlevels hdepth hraw hhead (by simp [ReadState.extend, hinput]) hfits

theorem readLoop_append {s s' : ReadState} (h : readLoop s = .ok s') (more : Bytes) :
    readLoop (s.extend more) = .ok (s'.extend more) := by
  induction hn : s.measure using Nat.strong_induction_on generalizing s with
  | _ n ih =>
      rcases readLoop_cases h with ⟨hnil, rfl⟩ | ⟨hpending, next, hstep, hnext⟩
      · exact readLoop_done hnil
      · have hextend : (s.extend more).pending ≠ [] := hpending
        rw [readLoop_step hextend (readStep_append hstep more)]
        exact ih next.measure (hn ▸ readStep_measure hpending hstep) hnext rfl

/-- A frame that was read is read again in front of any continuation. -/
theorem readRawFrame_append {input raw rest : Bytes} (h : readRawFrame input = .ok (raw, rest))
    (more : Bytes) : readRawFrame (input ++ more) = .ok (raw, rest ++ more) := by
  obtain ⟨s, hloop, hs⟩ := bind_eq_ok_iff.mp h
  obtain ⟨rfl, rfl⟩ := Prod.mk.inj (Except.ok.inj hs)
  have := readLoop_append hloop more
  simp only [ReadState.extend] at this
  simp only [readRawFrame, this, ok_bind]

end Resp
end EvilResp
