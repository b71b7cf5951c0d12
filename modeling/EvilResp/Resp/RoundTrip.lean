import EvilResp.Resp.Path
import EvilResp.Resp.Reader

/-!
# Round trip of frame streams

A frame that holds no inline command, keeps every text on its line, and respects
the depth and size limits is copied by the reader without touching the next
frame, and parsed back to itself.  The size limit bounds every advertised length,
so no length needs a bound of its own.

Main results:

- Theorem {lit}`parseFrameAt_encode`: the recursive parser inverts the encoder.
- Theorem {lit}`readLoop_encodes`: the reader consumes a list of encodings as so
  many children of its innermost level.
- Theorem {lit}`readFrames_encode`: a stream of encodings is read back frame by
  frame, and each buffer parses to its frame.
-/

namespace EvilResp
namespace Resp

open Library

namespace Frame

/-! ## Texts -/

/-- The text of the four kinds that write their text on one line. -/
def text : Frame → Option String
  | .simpleString value => some value
  | .simpleError value => some value
  | .double value => some value
  | .bigNumber value => some value
  | _ => none

/-- A test that the text of every frame of the tree passes. -/
def TextAll (test : Bytes → Bool) (f : Frame) : Prop :=
  f.all (fun g => g.text.all fun value => test (asBytes value)) = true

instance (test : Bytes → Bool) : DecidablePred (TextAll test) := fun f => by
  unfold TextAll
  infer_instance

/-- No text of the tree contains an LF byte. -/
abbrev LfFree : Frame → Prop :=
  TextAll fun line => (10 : UInt8) ∉ line

/-- No text of the tree contains CRLF. -/
abbrev CrlfFree : Frame → Prop :=
  TextAll fun line => NoCrlf line

theorem textAll_iff {test : Bytes → Bool} {f : Frame} :
    f.TextAll test ↔ (∀ value, f.text = some value → test (asBytes value) = true) ∧
      ∀ c ∈ f.children, c.TextAll test := by
  rw [TextAll, all_eq_true_iff]
  apply and_congr_left
  intro _
  cases f.text <;> simp

theorem TextAll.of_mem_children {test : Bytes → Bool} {f c : Frame} (h : f.TextAll test)
    (hc : c ∈ f.children) : c.TextAll test :=
  (all_eq_true_iff.mp h).2 c hc

theorem TextAll.text {test : Bytes → Bool} {f : Frame} (h : f.TextAll test) {value : String}
    (hvalue : f.text = some value) : test (asBytes value) = true := by
  have := (all_eq_true_iff.mp h).1
  rw [hvalue] at this
  exact this

theorem all_mono {p q : Frame → Bool} (hpq : ∀ f, p f = true → q f = true) {f : Frame}
    (h : f.all p = true) : f.all q = true := by
  induction f using childInduction with
  | step f ih =>
      rw [all_eq_true_iff] at h ⊢
      exact ⟨hpq f h.1, fun c hc => ih c hc (h.2 c hc)⟩

theorem LfFree.crlfFree {f : Frame} (h : f.LfFree) : f.CrlfFree := by
  refine all_mono (fun g hg => ?_) h
  cases htext : g.text with
  | none => rfl
  | some value =>
      rw [htext] at hg
      simp only [Option.all_some, decide_eq_true_eq] at hg ⊢
      exact noCrlf_of_not_mem hg

end Frame

open EvilResp.Resp.Frame (byteOf crlf)

/-! ## Printed lengths -/

theorem toString_natCast (n : Nat) : toString (n : Int) = toString n :=
  rfl

theorem toInt_ofInt_nat {n : Nat} (h : n < 2 ^ 63) : (Int64.ofInt n).toInt = n :=
  Int64.toInt_ofInt_of_bounds (by omega) (by omega)

theorem parseI64_nat {n : Nat} (h : n < 2 ^ 63) :
    parseI64 (toString n) = .ok (Int64.ofInt n) := by
  rw [← toString_natCast]
  exact parseI64_toString (by omega) (by omega)

theorem lf_not_mem_nat (n : Nat) : (10 : UInt8) ∉ asBytes (toString n) := by
  rw [← toString_natCast]
  exact lf_not_mem_toString n

theorem announces_nat {n : Nat} (h : n < 2 ^ 63) : Announces (asBytes (toString n)) n := by
  rw [← toString_natCast]
  exact announces_toString (by omega) (by omega)

theorem announces_null : Announces (asBytes "-1") (-1) := by
  have htext : "-1" = toString (-1 : Int) := by decide
  rw [htext]
  exact announces_toString (by omega) (by omega)

theorem parseLen_toString {n : Nat} (h : n < 2 ^ 63) (nullable : Bool) :
    parseLen (asBytes (toString n)) nullable = .ok (some n) := by
  simp only [parseLen, fromUtf8_asBytes, parseI64_nat h, toInt_ofInt_nat h]
  rw [if_neg (by rintro ⟨-, h⟩; omega), if_neg (by omega)]
  simp

theorem parseLen_null : parseLen (asBytes "-1") true = .ok none := by
  have htext : "-1" = toString (-1 : Int) := by decide
  have hparse : parseI64 "-1" = .ok (Int64.ofInt (-1)) :=
    htext ▸ parseI64_toString (by omega) (by omega)
  have hval : (Int64.ofInt (-1)).toInt = -1 := rfl
  simp only [parseLen, fromUtf8_asBytes, hparse, hval]
  rfl

/-! ## Heads -/

/-- What a frame writes before its children is one head of the reader. -/
theorem head_isHead {f : Frame} (hinline : f.InlineFree) (htext : f.LfFree)
    (hsize : (f.head none).length + 3 * f.children.length ≤ maxFrameBytes) :
    IsHead (f.head none) f.children.length := by
  have hmax : maxFrameBytes < 2 ^ 62 := by decide
  have hlf : ∀ value, f.text = some value → (10 : UInt8) ∉ asBytes value := by
    intro value hvalue
    simpa using htext.text hvalue
  cases f with
  | simpleString value => exact .scalar rfl rfl (hlf value rfl)
  | simpleError value => exact .scalar rfl rfl (hlf value rfl)
  | integer value => exact .scalar rfl rfl (lf_not_mem_toString _)
  | double value => exact .scalar rfl rfl (hlf value rfl)
  | bigNumber value => exact .scalar rfl rfl (hlf value rfl)
  | null =>
      have hnil : (10 : UInt8) ∉ ([] : Bytes) := by simp
      exact .scalar rfl rfl hnil
  | boolean value =>
      have hline : (10 : UInt8) ∉ [byteOf (if value then 't' else 'f')] := by
        cases value <;> decide
      exact .scalar rfl rfl hline
  | bulkString bytes =>
      cases bytes with
      | none => exact .nullBlob rfl (by decide) parseLen_null
      | some bytes =>
          refine .blob rfl (lf_not_mem_nat _) (parseLen_toString ?_ _)
          simp [Frame.head, Frame.pushBlob] at hsize
          omega
  | bulkError bytes =>
      refine .blob rfl (lf_not_mem_nat _) (parseLen_toString ?_ _)
      simp [Frame.head, Frame.pushBlob] at hsize
      omega
  | verbatimString bytes =>
      refine .blob rfl (lf_not_mem_nat _) (parseLen_toString ?_ _)
      simp [Frame.head, Frame.pushBlob] at hsize
      omega
  | array items =>
      cases items with
      | none => exact .nullAggregate rfl rfl (by decide) parseLen_null
      | some items =>
          simp only [Frame.children] at hsize ⊢
          exact .aggregate rfl rfl (lf_not_mem_nat _) (parseLen_toString (by omega) _)
  | set items =>
      simp only [Frame.children] at hsize ⊢
      exact .aggregate rfl rfl (lf_not_mem_nat _) (parseLen_toString (by omega) _)
  | push items =>
      simp only [Frame.children] at hsize ⊢
      exact .aggregate rfl rfl (lf_not_mem_nat _) (parseLen_toString (by omega) _)
  | map items =>
      have hlen : (Frame.map items).children.length = items.length * 2 := by
        simp [Frame.children, List.length_flatMap]
      rw [hlen] at hsize ⊢
      exact .aggregate rfl rfl (lf_not_mem_nat _) (parseLen_toString (by omega) _)
  | «attribute» items =>
      have hlen : (Frame.attribute items).children.length = items.length * 2 := by
        simp [Frame.children, List.length_flatMap]
      rw [hlen] at hsize ⊢
      exact .aggregate rfl rfl (lf_not_mem_nat _) (parseLen_toString (by omega) _)
  | inline parts => exact absurd rfl (hinline.ne_inline parts)

/-! ## The reader -/

/-- The shortest frame is a kind byte and CRLF. -/
theorem encode_length_ge {f : Frame} (hinline : ∀ parts, f ≠ .inline parts) :
    3 ≤ f.encode.length := by
  rw [Frame.encode_eq]
  cases f with
  | bulkString bytes => cases bytes <;> simp [Frame.head, Frame.pushBlob, Frame.pushLine, crlf] <;> omega
  | array items => cases items <;> simp [Frame.head, Frame.pushLine, crlf] <;> omega
  | inline parts => exact absurd rfl (hinline parts)
  | _ => simp [Frame.head, Frame.pushLine, Frame.pushBlob, crlf] <;> omega

theorem encodes_length_ge {fs : List Frame} (hlength : ∀ f ∈ fs, 3 ≤ f.encode.length) :
    3 * fs.length ≤ (fs.flatMap Frame.encode).length := by
  induction fs with
  | nil => simp
  | cons f fs ih =>
      obtain ⟨hf, hfs⟩ := List.forall_mem_cons.mp hlength
      have htail := ih hfs
      simp only [List.flatMap_cons, List.length_append, List.length_cons]
      omega

/-- A child is not longer than its parent. -/
theorem encode_length_le_of_mem_children {f c : Frame} (hc : c ∈ f.children) :
    c.encode.length ≤ f.encode.length := by
  rw [f.encode_eq, List.length_append]
  obtain ⟨before, after, hsplit⟩ := List.append_of_mem hc
  rw [hsplit]
  simp only [List.flatMap_append, List.flatMap_cons, List.length_append]
  omega

/-- A list of frames is consumed as so many children, if each frame is. -/
theorem readLoop_encodes_of {fs : List Frame} {levels : List Nat} {raw rest : Bytes}
    (hstep : ∀ f ∈ fs, ∀ {raw remaining rest}, raw.length + f.encode.length ≤ maxFrameBytes →
      readLoop { raw, pending := (remaining + 1) :: levels, input := f.encode ++ rest } =
        readLoop { raw := raw ++ f.encode, pending := remaining :: levels, input := rest })
    (hsize : raw.length + (fs.flatMap Frame.encode).length ≤ maxFrameBytes) :
    readLoop { raw, pending := fs.length :: levels, input := fs.flatMap Frame.encode ++ rest } =
      readLoop { raw := raw ++ fs.flatMap Frame.encode, pending := 0 :: levels, input := rest } := by
  induction fs generalizing raw with
  | nil => simp
  | cons f fs ih =>
      obtain ⟨hf, hfs⟩ := List.forall_mem_cons.mp hstep
      simp only [List.flatMap_cons, List.length_append, List.length_cons, List.append_assoc]
        at hsize ⊢
      rw [hf (by omega), ih hfs (by rw [List.length_append]; omega), List.append_assoc]

/-- The reader consumes one encoding as one child of its innermost level. -/
theorem readLoop_encode {f : Frame} (hinline : f.InlineFree) (htext : f.LfFree) :
    ∀ {levels : List Nat} {raw rest : Bytes} {remaining : Nat},
      levels.length + f.depth ≤ maxFrameDepth →
      raw.length + f.encode.length ≤ maxFrameBytes →
      readLoop { raw, pending := (remaining + 1) :: levels, input := f.encode ++ rest } =
        readLoop { raw := raw ++ f.encode, pending := remaining :: levels, input := rest } := by
  induction f using Frame.childInduction with
  | step f ih =>
      intro levels raw rest remaining hdepth hsize
      have hchildren := encodes_length_ge fun c hc =>
        encode_length_ge (hinline.of_mem_children hc).ne_inline
      have hlength : f.encode.length =
          (f.head none).length + (f.children.flatMap Frame.encode).length := by
        rw [Frame.encode_eq, List.length_append]
      have hhead := head_isHead hinline htext (by omega)
      have hheadLength := hhead.length_ge
      have hdepthPos := f.depth_pos
      have hstep := readStep_head
        (s := { raw, pending := (remaining + 1) :: levels, input := f.encode ++ rest })
        rfl (by omega) (by simp only; omega) hhead
        (by rw [Frame.encode_eq, List.append_assoc]) (by simp; omega)
      rw [readLoop_step (by simp) hstep, Frame.encode_eq]
      simp only
      split <;> rename_i hpos
      · -- the children are one more level, closed after the last of them
        rw [readLoop_encodes_of _ (by rw [List.length_append]; omega),
          readLoop_step (by simp) (readStep_close rfl), List.append_assoc]
        intro c hc raw remaining rest hfits
        have hlt := Frame.depth_lt_of_mem_children hc
        exact ih c hc (hinline.of_mem_children hc) (htext.of_mem_children hc)
          (by rw [List.length_cons]; omega) hfits
      · have hnil : f.children = [] := List.length_eq_zero_iff.mp (by omega)
        simp [hnil]

/-- One read returns one encoding and leaves what follows it. -/
theorem readRawFrame_encode {f : Frame} (hinline : f.InlineFree) (htext : f.LfFree)
    (hdepth : f.depth ≤ maxFrameDepth) (hsize : f.encode.length ≤ maxFrameBytes) (rest : Bytes) :
    readRawFrame (f.encode ++ rest) = .ok (f.encode, rest) := by
  have hread : readLoop { raw := [], pending := [1], input := f.encode ++ rest } =
      readLoop { raw := [] ++ f.encode, pending := [0], input := rest } :=
    readLoop_encode hinline htext (by simpa using hdepth) (by simpa using hsize)
  have hclose : readLoop { raw := f.encode, pending := [0], input := rest } =
      .ok { raw := f.encode, pending := [], input := rest } := by
    rw [readLoop_step (by simp) (readStep_close rfl), readLoop_done rfl]
  rw [List.nil_append, hclose] at hread
  simp only [readRawFrame, hread, ok_bind]

/-! ## The parser -/

/-- Consecutive encodings are read as their frames, if each one is. -/
theorem readItems_encode {parse : Parser Frame} {fs : List Frame}
    (hparse : ∀ f ∈ fs, ∀ rest, parse (f.encode ++ rest) = .ok (f, rest)) (rest : Bytes) :
    readItems parse fs.length (fs.flatMap Frame.encode ++ rest) = .ok (fs, rest) := by
  induction fs with
  | nil => rfl
  | cons f fs ih =>
      obtain ⟨hf, hfs⟩ := List.forall_mem_cons.mp hparse
      simp only [List.length_cons, List.flatMap_cons, List.append_assoc, readItems, hf, ok_bind,
        ih hfs]

/-- After the head of a frame the parser reads as many frames as it has children. -/
theorem parseFrameInner_head {f : Frame} (hinline : ∀ parts, f ≠ .inline parts)
    (htext : ∀ value, f.text = some value → NoCrlf (asBytes value))
    (hsmall : (f.head none).length + f.children.length < 2 ^ 63) {parse : Parser Frame}
    {input : Bytes} (hroom : 3 * f.children.length ≤ input.length) :
    parseFrameInner parse (f.head none ++ input) =
      (readItems parse f.children.length input).map fun read => (f.rebuild read.1, read.2) := by
  have hblob : ∀ (kind : Char) (bytes : Bytes), f.head none = Frame.pushBlob kind bytes none →
      Announces (asBytes (toString bytes.length)) bytes.length := by
    intro kind bytes hhead
    apply announces_nat
    rw [hhead] at hsmall
    simp only [Frame.pushBlob, List.length_append] at hsmall
    omega
  cases f with
  | simpleString value | simpleError value | double value | bigNumber value =>
      have hline := takeUtf8Line_append (htext value rfl) input
      show (takeUtf8Line (asBytes value ++ crlf ++ input) >>= _) = _
      rw [hline, ok_bind]
      rfl
  | integer value =>
      have hmax := value.toInt_lt
      have hline := takeI64Line_append (by exact value.le_toInt) (by omega) input
      show (takeI64Line (asBytes (toString value.toInt) ++ crlf ++ input) >>= _) = _
      rw [hline, ok_bind, Int64.ofInt_toInt]
      rfl
  | null =>
      show (takeLine ([] ++ crlf ++ input) >>= _) = _
      rw [takeLine_append (by decide), ok_bind]
      rfl
  | boolean value =>
      cases value with
      | true =>
          show (takeLine ([byteOf 't'] ++ crlf ++ input) >>= _) = _
          rw [takeLine_append (by decide), ok_bind]
          rfl
      | false =>
          show (takeLine ([byteOf 'f'] ++ crlf ++ input) >>= _) = _
          rw [takeLine_append (by decide), ok_bind]
          rfl
  | bulkString bytes =>
      cases bytes with
      | none =>
          show (parseOptionalBlob (asBytes "-1" ++ crlf ++ input) >>= _) = _
          rw [parseOptionalBlob_null announces_null, ok_bind]
          rfl
      | some bytes =>
          have hbody := parseOptionalBlob_append (hblob '$' bytes rfl) input
          simp only [Frame.head, Frame.pushBlob, Frame.pushLine, Option.getD_none, List.cons_append,
            List.append_assoc] at hbody ⊢
          show (parseOptionalBlob _ >>= _) = _
          rw [hbody, ok_bind]
          rfl
  | bulkError bytes =>
      have hbody := parseRequiredBlob_append (hblob '!' bytes rfl) input
      simp only [Frame.head, Frame.pushBlob, Frame.pushLine, Option.getD_none, List.cons_append,
        List.append_assoc] at hbody ⊢
      show (parseRequiredBlob _ >>= _) = _
      rw [hbody, ok_bind]
      rfl
  | verbatimString bytes =>
      have hbody := parseRequiredBlob_append (hblob '=' bytes rfl) input
      simp only [Frame.head, Frame.pushBlob, Frame.pushLine, Option.getD_none, List.cons_append,
        List.append_assoc] at hbody ⊢
      show (parseRequiredBlob _ >>= _) = _
      rw [hbody, ok_bind]
      rfl
  | array items =>
      cases items with
      | none => exact parseOptionalSequence_null announces_null input
      | some items =>
          simp only [Frame.children] at hroom hsmall ⊢
          exact parseOptionalSequence_eq (announces_nat (by omega)) hroom
  | set items | push items =>
      simp only [Frame.children] at hroom hsmall ⊢
      exact parseSequence_eq (announces_nat (by omega)) hroom
  | map items =>
      have hcount : (Frame.map items).children.length = 2 * items.length :=
        length_flatten_pairs items
      rw [hcount] at hroom hsmall ⊢
      exact parseMapLike_eq (announces_nat (by omega)) (by omega)
  | «attribute» items =>
      have hcount : (Frame.attribute items).children.length = 2 * items.length :=
        length_flatten_pairs items
      rw [hcount] at hroom hsmall ⊢
      exact parseMapLike_eq (announces_nat (by omega)) (by omega)
  | inline parts => exact absurd rfl (hinline parts)

/-- One frame is read back when its children are. -/
theorem parseFrameInner_encode {f : Frame} (hinline : ∀ parts, f ≠ .inline parts)
    (htext : ∀ value, f.text = some value → NoCrlf (asBytes value))
    (hsmall : f.encode.length < 2 ^ 63)
    (hroom : 3 * f.children.length ≤ (f.children.flatMap Frame.encode).length)
    {parse : Parser Frame}
    (hparse : ∀ c ∈ f.children, ∀ rest, parse (c.encode ++ rest) = .ok (c, rest)) (rest : Bytes) :
    parseFrameInner parse (f.encode ++ rest) = .ok (f, rest) := by
  have hlength : f.encode.length =
      (f.head none).length + (f.children.flatMap Frame.encode).length := by
    rw [Frame.encode_eq, List.length_append]
  rw [Frame.encode_eq, List.append_assoc, parseFrameInner_head hinline htext (by omega),
    readItems_encode hparse rest, map_ok, Frame.rebuild_children]
  rw [List.length_append]
  omega

/-- The recursive parser inverts the encoder within its depth limit. -/
theorem parseFrameAt_encode {f : Frame} (hinline : f.InlineFree) (htext : f.CrlfFree)
    (hsmall : f.encode.length < 2 ^ 63) :
    ∀ {levels : Nat}, f.depth ≤ levels → ∀ rest : Bytes,
      parseFrameAt levels (f.encode ++ rest) = .ok (f, rest) := by
  induction f using Frame.childInduction with
  | step f ih =>
      intro levels hdepth rest
      obtain ⟨levels, rfl⟩ : ∃ n, levels = n + 1 :=
        Nat.exists_eq_succ_of_ne_zero (by have := f.depth_pos; omega)
      have hcrlf : ∀ value, f.text = some value → NoCrlf (asBytes value) := by
        intro value hvalue
        simpa using htext.text hvalue
      have hroom := encodes_length_ge fun c hc =>
        encode_length_ge (hinline.of_mem_children hc).ne_inline
      refine parseFrameInner_encode hinline.ne_inline hcrlf hsmall hroom (fun c hc rest => ?_) rest
      have hlt := Frame.depth_lt_of_mem_children hc
      have hle := encode_length_le_of_mem_children hc
      exact ih c hc (hinline.of_mem_children hc) (htext.of_mem_children hc) (by omega)
        (by omega) rest

theorem parseFrame_encode {f : Frame} (hinline : f.InlineFree) (htext : f.CrlfFree)
    (hdepth : f.depth ≤ maxFrameDepth) (hsize : f.encode.length ≤ maxFrameBytes) :
    parseFrame f.encode = .ok f := by
  have hmax : maxFrameBytes < 2 ^ 63 := by decide
  have hparse := parseFrameAt_encode hinline htext (by omega) hdepth []
  rw [List.append_nil] at hparse
  simp only [parseFrame]
  rw [if_neg (by omega), hparse, ok_bind]
  simp

/-! ## Streams -/

/-- Read a number of frames one after another. -/
def readFrames : Nat → Bytes → Except IoError (List Bytes × Bytes)
  | 0, input => .ok ([], input)
  | n + 1, input => do
      let (raw, input) ← readRawFrame input
      let (raws, input) ← readFrames n input
      .ok (raw :: raws, input)

/-- A stream of encodings is read back frame by frame, nothing after the last
frame is touched, and each buffer parses to its frame. -/
theorem readFrames_encode (fs : List Frame) (rest : Bytes)
    (h : ∀ f ∈ fs, f.InlineFree ∧ f.LfFree ∧ f.depth ≤ maxFrameDepth ∧
      f.encode.length ≤ maxFrameBytes) :
    readFrames fs.length (fs.flatMap Frame.encode ++ rest) = .ok (fs.map Frame.encode, rest) ∧
      ∀ f ∈ fs, parseFrame f.encode = .ok f := by
  induction fs with
  | nil => exact ⟨rfl, by simp⟩
  | cons f fs ih =>
      obtain ⟨⟨hinline, htext, hdepth, hsize⟩, hfs⟩ := List.forall_mem_cons.mp h
      obtain ⟨hread, hparse⟩ := ih hfs
      have hfirst := readRawFrame_encode hinline htext hdepth hsize (fs.flatMap Frame.encode ++ rest)
      constructor
      · simp only [List.length_cons, List.flatMap_cons, List.append_assoc, readFrames, hfirst,
          ok_bind, hread, List.map_cons]
      · exact List.forall_mem_cons.mpr
          ⟨parseFrame_encode hinline htext.crlfFree hdepth hsize, hparse⟩

/-- A null and a binary payload that looks like a header, before an inline
command. -/
theorem readFrames_encode_two :
    readFrames 2 ([Frame.null, .bulkString (some [42, 57, 13, 10])].flatMap Frame.encode ++ [80]) =
        .ok ([Frame.null, .bulkString (some [42, 57, 13, 10])].map Frame.encode, [80]) ∧
      ∀ f ∈ [Frame.null, .bulkString (some [42, 57, 13, 10])], parseFrame f.encode = .ok f :=
  readFrames_encode [.null, .bulkString (some [42, 57, 13, 10])] [80] (by decide)

end Resp
end EvilResp
