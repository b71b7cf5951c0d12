import EvilResp.Resp.RoundTrip
import EvilResp.Resp.Unique

/-!
# Encoding a parsed frame again

A frame that was parsed is not encoded to the bytes it was parsed from: integers and
lengths lose signs and leading zeros, and inline commands lose their spacing.  The
encoding is parsed to the same frame, except where the first argument of an inline
command starts with a kind byte, which only leading white space had kept apart.

Main results:

- Theorem {lit}`Frame.Accepted.of_parse`: what the parser guarantees of a frame.
- Theorem {lit}`parseFrameAt_reencode`: accepted frames whose inline commands can be
  read again are parsed back.
- Theorem {lit}`Frame.Accepted.encode_append_inj`: such frames are determined by their
  bytes.
- Theorem {lit}`parseFrame_reencode_iff`: no other frame is parsed back.
-/

namespace EvilResp
namespace Resp

open Library
open EvilResp.Resp.Frame (byteOf crlf joinParts)

/-! ## Inline commands -/

/-- The characters that a frame other than an inline command starts with. -/
def kindChars : List Char :=
  ['+', '-', ':', '$', '*', '_', '#', ',', '(', '!', '=', '%', '~', '>', '|']

/-- The bytes that begin a frame of the protocol. -/
def isKind (b : UInt8) : Bool :=
  asChar b ∈ kindChars

/-- Whether the text of an inline command starts with a kind byte. -/
def startsKind (parts : List Bytes) : Bool :=
  (joinParts parts).head?.any isKind

/-- No inline command of the tree starts with a kind byte. -/
def Frame.Rereadable (f : Frame) : Prop :=
  f.all (fun | .inline parts => !startsKind parts | _ => true) = true

instance : DecidablePred Frame.Rereadable := fun f => by
  unfold Frame.Rereadable
  infer_instance

theorem Frame.rereadable_iff {f : Frame} :
    f.Rereadable ↔ (∀ parts, f = .inline parts → startsKind parts = false) ∧
      ∀ c ∈ f.children, c.Rereadable := by
  rw [Frame.Rereadable, Frame.all_eq_true_iff]
  apply and_congr_left
  intro _
  cases f <;> simp

/-- The arguments the parser makes of a line: words without white space, or one byte
of white space for a blank line. -/
def ParsedParts (parts : List Bytes) : Prop :=
  (parts ≠ [] ∧ ∀ part ∈ parts, part ≠ [] ∧ ∀ b ∈ part, isAsciiWhitespace b = false) ∨
    ∃ b, isAsciiWhitespace b = true ∧ parts = [[b]]

theorem shellWords_words {line part : Bytes} (h : part ∈ shellWords line) :
    part ≠ [] ∧ ∀ b ∈ part, isAsciiWhitespace b = false := by
  have hsplit : ∀ (line : Bytes), ∀ part ∈ line.splitOnP isAsciiWhitespace,
      ∀ b ∈ part, isAsciiWhitespace b = false := by
    intro line
    induction line with
    | nil => simp
    | cons c line ih =>
        intro part hpart
        rw [List.splitOnP_cons_eq_if_modifyHead] at hpart
        by_cases hc : isAsciiWhitespace c = true
        · rw [if_pos hc] at hpart
          rcases List.mem_cons.mp hpart with rfl | hrest
          · simp
          · exact ih part hrest
        · rw [if_neg hc] at hpart
          have hne := List.splitOnP_ne_nil isAsciiWhitespace line
          rcases List.exists_cons_of_ne_nil hne with ⟨first, rest, hparts⟩
          rw [hparts] at hpart ih
          rcases List.mem_cons.mp hpart with rfl | hrest
          · intro b hb
            rcases List.mem_cons.mp hb with rfl | hb
            · simpa using hc
            · exact ih first List.mem_cons_self b hb
          · exact ih part (List.mem_cons_of_mem _ hrest)
  rcases List.mem_filter.mp h with ⟨hmem, hne⟩
  exact ⟨by simpa using hne, hsplit line part hmem⟩

/-- A line without words is blank. -/
theorem blank_of_shellWords {line : Bytes} (h : shellWords line = []) :
    ∀ b ∈ line, isAsciiWhitespace b = true := by
  induction line with
  | nil => simp
  | cons c line ih =>
      rw [shellWords, List.splitOnP_cons_eq_if_modifyHead] at h
      by_cases hc : isAsciiWhitespace c = true
      · rw [if_pos hc, List.filter_cons, if_neg (by simp)] at h
        exact List.forall_mem_cons.mpr ⟨hc, ih h⟩
      · rw [if_neg hc] at h
        have hne := List.splitOnP_ne_nil isAsciiWhitespace line
        rcases List.exists_cons_of_ne_nil hne with ⟨first, rest, hparts⟩
        rw [hparts] at h
        simp at h

theorem joinParts_cons (part next : Bytes) (parts : List Bytes) :
    joinParts (part :: next :: parts) = part ++ byteOf ' ' :: joinParts (next :: parts) :=
  rfl

/-- Words joined by spaces are split into the same words. -/
theorem splitOnP_joinParts {parts : List Bytes} (hne : parts ≠ [])
    (hwords : ∀ part ∈ parts, ∀ b ∈ part, isAsciiWhitespace b = false) :
    (joinParts parts).splitOnP isAsciiWhitespace = parts := by
  induction parts with
  | nil => exact absurd rfl hne
  | cons part parts ih =>
      rcases List.forall_mem_cons.mp hwords with ⟨hpart, hrest⟩
      cases parts with
      | nil => exact List.splitOnP_eq_singleton hpart
      | cons next parts =>
          have hspace : isAsciiWhitespace (byteOf ' ') = true := by decide
          rw [joinParts_cons, List.splitOnP_append_cons_of_forall_mem hpart _ hspace, ih (by simp) hrest]

/-- Line feeds only occur where white space does. -/
theorem lf_not_mem_joinParts {parts : List Bytes}
    (h : ∀ part ∈ parts, ∀ b ∈ part, isAsciiWhitespace b = false) :
    (10 : UInt8) ∉ joinParts parts := by
  induction parts with
  | nil => simp [joinParts]
  | cons part parts ih =>
      rcases List.forall_mem_cons.mp h with ⟨hpart, hrest⟩
      have hhere : (10 : UInt8) ∉ part := fun hb => absurd (hpart 10 hb) (by decide)
      cases parts with
      | nil => exact hhere
      | cons next parts =>
          rw [joinParts_cons, List.mem_append, List.mem_cons, not_or, not_or]
          exact ⟨hhere, by decide, ih hrest⟩

theorem noCrlf_joinParts {parts : List Bytes} (h : ParsedParts parts) :
    NoCrlf (joinParts parts) := by
  rcases h with ⟨-, hwords⟩ | ⟨b, -, rfl⟩
  · exact noCrlf_of_not_mem (lf_not_mem_joinParts fun part hpart => (hwords part hpart).2)
  · intro hsub
    have := hsub.length_le
    simp [crlf, joinParts] at this

theorem joinParts_ne_nil {parts : List Bytes} (h : ParsedParts parts) : joinParts parts ≠ [] := by
  rcases h with ⟨hne, hwords⟩ | ⟨b, -, rfl⟩
  · rcases List.exists_cons_of_ne_nil hne with ⟨part, rest, rfl⟩
    have hpart := (hwords part List.mem_cons_self).1
    cases rest with
    | nil => exact hpart
    | cons next rest => simp [joinParts]
  · simp [joinParts]

/-- The arguments of a parsed line are read again from their joined text. -/
theorem parseInline_joinParts {parts : List Bytes} (h : ParsedParts parts) {b : UInt8}
    {line : Bytes} (hline : joinParts parts = b :: line) (rest : Bytes) :
    parseInline b (line ++ crlf ++ rest) = .ok (.inline parts, rest) := by
  have htake : takeLine (b :: (line ++ crlf ++ rest)) = .ok (joinParts parts, rest) := by
    rw [← takeLine_append (noCrlf_joinParts h) rest, hline]
    rfl
  simp only [parseInline, htake, ok_bind]
  rcases h with ⟨hne, hwords⟩ | ⟨c, hc, rfl⟩
  · have hsplit := splitOnP_joinParts hne fun part hpart => (hwords part hpart).2
    have hshell : shellWords (joinParts parts) = parts := by
      rw [shellWords, hsplit, List.filter_eq_self]
      intro part hpart
      simpa using (hwords part hpart).1
    rw [hshell, if_neg (by simpa using hne)]
  · have hbyte : b = c := by
      simp only [joinParts, List.cons.injEq] at hline
      exact hline.1.symm
    have hshell : shellWords (joinParts [[c]]) = [] := by
      rw [joinParts, shellWords, List.splitOnP_cons_eq_if_modifyHead, if_pos hc]
      rfl
    rw [hshell, hbyte]
    rfl

/-! ## Dispatch on the kind byte -/

/-- A byte that is no kind byte starts an inline command. -/
theorem parseFrameInner_inline {parse : Parser Frame} {b : UInt8} (h : isKind b = false)
    (input : Bytes) : parseFrameInner parse (b :: input) = parseInline b input := by
  simp only [isKind, kindChars, List.mem_cons, List.not_mem_nil, or_false, decide_eq_false_iff_not,
    not_or] at h
  unfold parseFrameInner
  split <;> simp_all

/-! ## What the parser accepts -/

/-- The line that is split off ends before the first CRLF. -/
theorem eq_append_of_splitLine {input line rest : Bytes} (h : splitLine input = some (line, rest)) :
    input = line ++ crlf ++ rest := by
  induction input using splitLine.induct generalizing line rest with
  | case1 after =>
      simp only [splitLine, Option.some.injEq, Prod.mk.injEq] at h
      rw [← h.1, ← h.2]
      rfl
  | case2 b after hne ih =>
      rw [splitLine.eq_2 _ _ hne, Option.map_eq_some_iff] at h
      rcases h with ⟨⟨line', rest'⟩, hsplit, hline⟩
      simp only [Prod.mk.injEq] at hline
      rw [← hline.1, ← hline.2, ih hsplit]
      rfl
  | case3 => cases h

theorem noCrlf_of_splitLine {input line rest : Bytes} (h : splitLine input = some (line, rest)) :
    NoCrlf line := by
  induction input using splitLine.induct generalizing line rest with
  | case1 after =>
      simp only [splitLine, Option.some.injEq, Prod.mk.injEq] at h
      rw [← h.1]
      decide
  | case2 b after hne ih =>
      rw [splitLine.eq_2 _ _ hne, Option.map_eq_some_iff] at h
      rcases h with ⟨⟨line', rest'⟩, hsplit, hline⟩
      simp only [Prod.mk.injEq] at hline
      rw [← hline.1]
      intro hsub
      rcases List.infix_cons_iff.mp hsub with hstart | hlater
      · rcases hstart with ⟨tail, htail⟩
        simp only [crlf, List.cons_append, List.nil_append, List.cons.injEq] at htail
        have hafter := eq_append_of_splitLine hsplit
        rw [← htail.2, List.cons_append] at hafter
        exact hne _ htail.1.symm hafter
      · exact ih hsplit hlater
  | case3 => cases h

theorem takeLine_cases {input line rest : Bytes} (h : takeLine input = .ok (line, rest)) :
    input = line ++ crlf ++ rest ∧ NoCrlf line := by
  unfold takeLine at h
  cases hsplit : splitLine input with
  | none => simp [hsplit] at h
  | some split =>
      simp only [hsplit] at h
      cases h
      exact ⟨eq_append_of_splitLine hsplit, noCrlf_of_splitLine hsplit⟩

theorem takeLine_length {input line rest : Bytes} (h : takeLine input = .ok (line, rest)) :
    rest.length ≤ input.length := by
  rw [(takeLine_cases h).1]
  simp only [List.length_append]
  omega

theorem takeUtf8Line_of_ok {input rest : Bytes} {text : String}
    (h : takeUtf8Line input = .ok (text, rest)) :
    rest.length ≤ input.length ∧ NoCrlf (asBytes text) := by
  rcases bind_eq_ok_iff.mp h with ⟨⟨line, after⟩, hline, htext⟩
  simp only at htext
  cases hutf8 : fromUtf8 line with
  | error error => simp [hutf8] at htext
  | ok value =>
      simp only [hutf8, Except.ok.injEq, Prod.mk.injEq] at htext
      rw [← htext.1, fromUtf8_eq_ok_iff.mp hutf8, ← htext.2]
      exact ⟨takeLine_length hline, (takeLine_cases hline).2⟩

theorem takeI64Line_length {input rest : Bytes} {value : Int64}
    (h : takeI64Line input = .ok (value, rest)) : rest.length ≤ input.length := by
  rcases bind_eq_ok_iff.mp h with ⟨⟨text, after⟩, htext, hvalue⟩
  simp only at hvalue
  cases hparse : parseI64 text with
  | error error => simp [hparse] at hvalue
  | ok found =>
      simp only [hparse, Except.ok.injEq, Prod.mk.injEq] at hvalue
      rw [← hvalue.2]
      exact (takeUtf8Line_of_ok htext).1

/-- A blob and what follows it were in the input. -/
theorem takeBlob_length {len : Int64} {input bytes rest : Bytes}
    (h : takeBlob len input = .ok (bytes, rest)) :
    bytes.length ≤ input.length ∧ rest.length ≤ input.length := by
  rcases bind_eq_ok_iff.mp h with ⟨count, -, hbody⟩
  split at hbody
  · cases hbody
  split at hbody
  · rename_i after hdrop
    cases hbody
    have hlength := congrArg List.length hdrop
    rw [List.length_drop] at hlength
    simp only [List.length_cons] at hlength
    exact ⟨List.length_take_le' _ _, by omega⟩
  · cases hbody

/-- The arguments of an inline command are words, or its first byte is white space. -/
theorem parsedParts_of_parseInline {b : UInt8} {input rest : Bytes} {f : Frame}
    (h : parseInline b input = .ok (f, rest)) : ∃ parts, f = .inline parts ∧ ParsedParts parts := by
  rcases bind_eq_ok_iff.mp h with ⟨⟨line, after⟩, hline, hparts⟩
  simp only [Except.ok.injEq, Prod.mk.injEq] at hparts
  refine ⟨_, hparts.1.symm, ?_⟩
  by_cases hwords : shellWords line = []
  · rw [hwords, List.isEmpty_nil, if_pos rfl]
    have hinput := (takeLine_cases hline).1
    refine .inr ⟨b, ?_, rfl⟩
    cases line with
    | nil =>
        simp only [crlf, List.nil_append, List.cons_append, List.cons.injEq] at hinput
        rw [hinput.1]
        rfl
    | cons c line =>
        simp only [List.cons_append, List.cons.injEq] at hinput
        rw [hinput.1]
        exact blank_of_shellWords hwords c List.mem_cons_self
  · rw [if_neg (by simpa using hwords)]
    exact .inl ⟨hwords, fun part hpart => shellWords_words hpart⟩

/-- An aggregate announces no more children than there are bytes. -/
theorem validateSequenceLen_le {len : Int64} {minimumBytes count : Nat} {input : Bytes}
    (h : validateSequenceLen len minimumBytes input = .ok count) : count ≤ input.length := by
  rcases bind_eq_ok_iff.mp h with ⟨n, -, hcount⟩
  split at hcount
  · cases hcount
  · cases hcount
    have hdiv := Nat.div_le_self input.length minimumBytes
    omega

theorem readItems_length {parse : Parser Frame} {n : Nat} {input : Bytes}
    {read : List Frame × Bytes} (h : readItems parse n input = .ok read) : read.1.length = n := by
  induction n generalizing input read with
  | zero =>
      cases h
      rfl
  | succ n ih =>
      simp only [readItems, bind_eq_ok_iff, Prod.exists] at h
      rcases h with ⟨g, input', -, gs, input'', hgs, heq⟩
      cases heq
      exact congrArg (· + 1) (ih hgs)

section Children

variable {parse : Parser Frame} {P : Frame → Prop} {N : Nat}
  (hparse : ∀ {input g rest}, input.length ≤ N → parse input = .ok (g, rest) →
    P g ∧ rest.length ≤ input.length)
include hparse

theorem forall_of_readItems {n : Nat} {input rest : Bytes} {items : List Frame}
    (hfits : input.length ≤ N) (h : readItems parse n input = .ok (items, rest)) :
    (∀ c ∈ items, P c) ∧ rest.length ≤ input.length := by
  induction n generalizing input rest items with
  | zero =>
      cases h
      exact ⟨by simp, le_rfl⟩
  | succ n ih =>
      simp only [readItems, bind_eq_ok_iff, Prod.exists] at h
      rcases h with ⟨g, input', hg, gs, input'', hgs, heq⟩
      cases heq
      rcases hparse hfits hg with ⟨hfirst, hlength⟩
      rcases ih (hlength.trans hfits) hgs with ⟨hrest, hlength'⟩
      exact ⟨List.forall_mem_cons.mpr ⟨hfirst, hrest⟩, hlength'.trans hlength⟩

theorem forall_of_readSequence {len : Int64} {input rest : Bytes} {items : List Frame}
    (hfits : input.length ≤ N) (h : readSequence parse len input = .ok (items, rest)) :
    items.length ≤ input.length ∧ (∀ c ∈ items, P c) ∧ rest.length ≤ input.length := by
  rcases bind_eq_ok_iff.mp h with ⟨count, hcount, hitems⟩
  have hlength : items.length = count := readItems_length hitems
  exact ⟨hlength ▸ validateSequenceLen_le hcount, forall_of_readItems hparse hfits hitems⟩

theorem forall_of_readPairs {n : Nat} {input rest : Bytes} {pairs : List (Frame × Frame)}
    (hfits : input.length ≤ N) (h : readPairs parse n input = .ok (pairs, rest)) :
    pairs.length = n ∧ (∀ c ∈ pairs.flatMap fun pair => [pair.1, pair.2], P c) ∧
      rest.length ≤ input.length := by
  induction n generalizing input rest pairs with
  | zero =>
      cases h
      exact ⟨rfl, by simp, le_rfl⟩
  | succ n ih =>
      simp only [readPairs, bind_eq_ok_iff, Prod.exists] at h
      rcases h with ⟨key, input₁, hkey, value, input₂, hvalue, others, input₃, hothers, heq⟩
      cases heq
      rcases hparse hfits hkey with ⟨hfirst, hlength₁⟩
      rcases hparse (hlength₁.trans hfits) hvalue with ⟨hsecond, hlength₂⟩
      have hle := hlength₂.trans hlength₁
      rcases ih (hle.trans hfits) hothers with ⟨hcount, hrest, hlength₃⟩
      refine ⟨congrArg (· + 1) hcount, ?_, hlength₃.trans hle⟩
      exact List.forall_mem_cons.mpr ⟨hfirst, List.forall_mem_cons.mpr ⟨hsecond, hrest⟩⟩

theorem children_of_parseOptionalSequence {build : Option (List Frame) → Frame} {f : Frame}
    {input rest : Bytes} (hfits : input.length ≤ N)
    (h : parseOptionalSequence parse build input = .ok (f, rest)) :
    rest.length ≤ input.length ∧ (f = build none ∨
      ∃ items, f = build (some items) ∧ items.length ≤ input.length ∧ ∀ c ∈ items, P c) := by
  rcases bind_eq_ok_iff.mp h with ⟨⟨len, after⟩, hline, hbody⟩
  have hafter := takeI64Line_length hline
  simp only at hbody
  by_cases hnull : len.toInt = -1
  · simp only [if_pos hnull, Except.ok.injEq, Prod.mk.injEq] at hbody
    exact ⟨hbody.2 ▸ hafter, .inl hbody.1.symm⟩
  · simp only [if_neg hnull, bind_eq_ok_iff, Prod.exists] at hbody
    rcases hbody with ⟨items, last, hitems, heq⟩
    cases heq
    rcases forall_of_readSequence hparse (hafter.trans hfits) hitems with ⟨hcount, hall, hlast⟩
    exact ⟨hlast.trans hafter, .inr ⟨items, rfl, hcount.trans hafter, hall⟩⟩

theorem children_of_parseSequence {build : List Frame → Frame} {f : Frame} {input rest : Bytes}
    (hfits : input.length ≤ N) (h : parseSequence parse build input = .ok (f, rest)) :
    rest.length ≤ input.length ∧
      ∃ items, f = build items ∧ items.length ≤ input.length ∧ ∀ c ∈ items, P c := by
  rcases bind_eq_ok_iff.mp h with ⟨⟨len, after⟩, hline, hbody⟩
  have hafter := takeI64Line_length hline
  simp only at hbody
  by_cases hneg : len.toInt < 0
  · simp [if_pos hneg] at hbody
  · simp only [if_neg hneg, bind_eq_ok_iff, Prod.exists] at hbody
    rcases hbody with ⟨items, last, hitems, heq⟩
    cases heq
    rcases forall_of_readSequence hparse (hafter.trans hfits) hitems with ⟨hcount, hall, hlast⟩
    exact ⟨hlast.trans hafter, items, rfl, hcount.trans hafter, hall⟩

theorem children_of_parseMapLike {build : List (Frame × Frame) → Frame} {f : Frame}
    {input rest : Bytes} (hfits : input.length ≤ N)
    (h : parseMapLike parse build input = .ok (f, rest)) :
    rest.length ≤ input.length ∧ ∃ items, f = build items ∧ items.length ≤ input.length ∧
      ∀ c ∈ items.flatMap fun pair => [pair.1, pair.2], P c := by
  rcases bind_eq_ok_iff.mp h with ⟨⟨len, after⟩, hline, hbody⟩
  have hafter := takeI64Line_length hline
  simp only at hbody
  by_cases hneg : len.toInt < 0
  · simp [if_pos hneg] at hbody
  · simp only [if_neg hneg, bind_eq_ok_iff, Prod.exists] at hbody
    rcases hbody with ⟨count, hcount, items, last, hitems, heq⟩
    cases heq
    rcases forall_of_readPairs hparse (hafter.trans hfits) hitems with ⟨hlength, hall, hlast⟩
    have hle := validateSequenceLen_le hcount
    exact ⟨hlast.trans hafter, items, rfl, by omega, hall⟩

end Children

/-- A blob is not longer than the input it was taken from. -/
theorem parseRequiredBlob_length {input bytes rest : Bytes}
    (h : parseRequiredBlob input = .ok (bytes, rest)) :
    bytes.length ≤ input.length ∧ rest.length ≤ input.length := by
  rcases bind_eq_ok_iff.mp h with ⟨⟨len, after⟩, hline, hbody⟩
  have hafter := takeI64Line_length hline
  simp only at hbody
  split at hbody
  · cases hbody
  · have hblob := takeBlob_length hbody
    exact ⟨hblob.1.trans hafter, hblob.2.trans hafter⟩

theorem parseOptionalBlob_length {input rest : Bytes} {bytes : Option Bytes}
    (h : parseOptionalBlob input = .ok (bytes, rest)) :
    (∀ body ∈ bytes, body.length ≤ input.length) ∧ rest.length ≤ input.length := by
  rcases bind_eq_ok_iff.mp h with ⟨⟨len, after⟩, hline, hbody⟩
  have hafter := takeI64Line_length hline
  simp only at hbody
  by_cases hnull : len.toInt = -1
  · simp only [if_pos hnull, Except.ok.injEq, Prod.mk.injEq] at hbody
    rw [← hbody.1, ← hbody.2]
    exact ⟨by simp, hafter⟩
  · simp only [if_neg hnull, bind_eq_ok_iff, Prod.exists] at hbody
    rcases hbody with ⟨body, last, hblob, heq⟩
    cases heq
    have hlengths := takeBlob_length hblob
    exact ⟨by simpa using hlengths.1.trans hafter, hlengths.2.trans hafter⟩

/-- What one level of the parser guarantees of a frame that is no inline command. -/
structure Frame.Parsed (P : Frame → Prop) (b : UInt8) (input : Bytes) (f : Frame) : Prop where
  inline : ∀ parts, f ≠ .inline parts
  kind : asChar b = f.kind
  text : ∀ value, f.text = some value → NoCrlf (asBytes value)
  length : ∀ n, f.declaredLength = some n → n ≤ input.length
  children : ∀ c ∈ f.children, P c

/-- What one level of the parser guarantees of a frame it returns. -/
theorem parseFrameInner_cases {parse : Parser Frame} {P : Frame → Prop} {N : Nat}
    (hparse : ∀ {input g rest}, input.length ≤ N → parse input = .ok (g, rest) →
      P g ∧ rest.length ≤ input.length)
    {b : UInt8} {input rest : Bytes} {f : Frame} (hfits : input.length ≤ N)
    (h : parseFrameInner parse (b :: input) = .ok (f, rest)) :
    rest.length ≤ (b :: input).length ∧
      ((∃ parts, isKind b = false ∧ f = .inline parts ∧ ParsedParts parts) ∨
        f.Parsed P b input) := by
  by_cases hkind : isKind b = true
  · have hgoal : rest.length ≤ input.length ∧ f.Parsed P b input := by
      simp only [parseFrameInner] at h
      split at h <;> rename_i hchar
      case h_1 | h_2 | h_8 | h_9 =>
        rcases bind_eq_ok_iff.mp h with ⟨⟨text, after⟩, htext, heq⟩
        cases heq
        have hline := takeUtf8Line_of_ok htext
        exact ⟨hline.1, by simp, hchar, by simpa [Frame.text] using hline.2,
          by simp [Frame.declaredLength], by simp [Frame.children]⟩
      case h_3 =>
        rcases bind_eq_ok_iff.mp h with ⟨⟨value, after⟩, hvalue, heq⟩
        cases heq
        exact ⟨takeI64Line_length hvalue, by simp, hchar, by simp [Frame.text],
          by simp [Frame.declaredLength], by simp [Frame.children]⟩
      case h_4 =>
        rcases bind_eq_ok_iff.mp h with ⟨⟨bytes, after⟩, hbytes, heq⟩
        cases heq
        have hlengths := parseOptionalBlob_length hbytes
        refine ⟨hlengths.2, by simp, hchar, by simp [Frame.text], ?_, by simp [Frame.children]⟩
        cases bytes with
        | none => simp [Frame.declaredLength]
        | some bytes => simpa [Frame.declaredLength] using hlengths.1
      case h_5 =>
        rcases children_of_parseOptionalSequence hparse hfits h with
          ⟨hrest, rfl | ⟨items, rfl, hcount, hitems⟩⟩
        · refine ⟨hrest, by simp, hchar, by simp [Frame.text], ?_, by simp [Frame.children]⟩
          simp [Frame.declaredLength]
        · exact ⟨hrest, by simp, hchar, by simp [Frame.text],
            by simpa [Frame.declaredLength] using hcount, hitems⟩
      case h_6 =>
        rcases bind_eq_ok_iff.mp h with ⟨⟨line, after⟩, hline, heq⟩
        have hafter := takeLine_length hline
        split at heq
        · cases heq
        · cases heq
          exact ⟨hafter, by simp, hchar, by simp [Frame.text],
            by simp [Frame.declaredLength], by simp [Frame.children]⟩
      case h_7 =>
        rcases bind_eq_ok_iff.mp h with ⟨⟨line, after⟩, hline, heq⟩
        have hafter := takeLine_length hline
        simp only at heq
        split_ifs at heq <;> cases heq <;>
          exact ⟨hafter, by simp, hchar, by simp [Frame.text],
            by simp [Frame.declaredLength], by simp [Frame.children]⟩
      case h_10 | h_11 =>
        rcases bind_eq_ok_iff.mp h with ⟨⟨bytes, after⟩, hbytes, heq⟩
        cases heq
        have hlengths := parseRequiredBlob_length hbytes
        exact ⟨hlengths.2, by simp, hchar, by simp [Frame.text],
          by simpa [Frame.declaredLength] using hlengths.1, by simp [Frame.children]⟩
      case h_12 | h_15 =>
        rcases children_of_parseMapLike hparse hfits h with ⟨hrest, items, rfl, hcount, hitems⟩
        exact ⟨hrest, by simp, hchar, by simp [Frame.text],
          by simpa [Frame.declaredLength] using hcount, hitems⟩
      case h_13 | h_14 =>
        rcases children_of_parseSequence hparse hfits h with ⟨hrest, items, rfl, hcount, hitems⟩
        exact ⟨hrest, by simp, hchar, by simp [Frame.text],
          by simpa [Frame.declaredLength] using hcount, hitems⟩
      case h_16 => simp_all [isKind, kindChars]
    exact ⟨hgoal.1.trans (by simp), .inr hgoal.2⟩
  · rw [Bool.not_eq_true] at hkind
    rw [parseFrameInner_inline hkind] at h
    rcases parsedParts_of_parseInline h with ⟨parts, hf, hparts⟩
    refine ⟨?_, .inl ⟨parts, hkind, hf, hparts⟩⟩
    rcases bind_eq_ok_iff.mp h with ⟨⟨line, after⟩, hline, heq⟩
    cases heq
    exact takeLine_length hline

/-- The frames that the parser can return: every text is one line, and the arguments of
every inline command are those of a line. -/
inductive Frame.Accepted : Frame → Prop where
  | typed {f : Frame} (hinline : ∀ parts, f ≠ .inline parts)
      (htext : ∀ value, f.text = some value → NoCrlf (asBytes value))
      (hchildren : ∀ c ∈ f.children, c.Accepted) : f.Accepted
  | inline {parts : List Bytes} (hparts : ParsedParts parts) : (Frame.inline parts).Accepted

theorem Frame.Accepted.of_parse {N levels : Nat} {input rest : Bytes} {f : Frame}
    (hfits : input.length ≤ N) (h : parseFrameAt levels input = .ok (f, rest)) :
    (f.Accepted ∧ f.depth ≤ levels ∧ f.LengthsLe N) ∧ rest.length ≤ input.length := by
  induction levels generalizing input rest f with
  | zero => cases h
  | succ levels ih =>
      cases input with
      | nil => cases h
      | cons b input =>
          have hshort : input.length ≤ N := (Nat.le_succ _).trans hfits
          have hcases := parseFrameInner_cases
            (P := fun g => g.Accepted ∧ g.depth ≤ levels ∧ g.LengthsLe N) ih hshort h
          refine ⟨?_, hcases.1⟩
          rcases hcases.2 with ⟨parts, -, rfl, hparts⟩ | hparsed
          · exact ⟨.inline hparts, Frame.depth_le_succ (by simp [Frame.children]),
              Frame.lengthsLe_iff.mpr ⟨by simp [Frame.declaredLength], by simp [Frame.children]⟩⟩
          · refine ⟨.typed hparsed.inline hparsed.text fun c hc => (hparsed.children c hc).1,
              Frame.depth_le_succ fun c hc => (hparsed.children c hc).2.1,
              Frame.lengthsLe_iff.mpr ⟨fun n hn => ?_, fun c hc => (hparsed.children c hc).2.2⟩⟩
            exact (hparsed.length n hn).trans (by exact_mod_cast hshort)

/-- What {lit}`parseFrame` guarantees of a frame it returns. -/
theorem Frame.Accepted.of_parseFrame {p : Bytes} {f : Frame} (h : parseFrame p = .ok f) :
    f.Accepted ∧ f.depth ≤ maxFrameDepth ∧ f.LengthsLe maxFrameBytes := by
  unfold parseFrame at h
  split at h
  · cases h
  rename_i hsize
  rcases bind_eq_ok_iff.mp h with ⟨⟨g, rest⟩, hparse, heq⟩
  simp only at heq
  split at heq
  · cases heq
  · cases heq
    exact (Frame.Accepted.of_parse (not_lt.mp hsize) hparse).1

theorem Frame.Accepted.encode_length_ge {f : Frame} (h : f.Accepted) : 3 ≤ f.encode.length := by
  cases h with
  | typed hinline => exact Resp.encode_length_ge hinline
  | inline hparts =>
      have hpos := List.length_pos_of_ne_nil (joinParts_ne_nil hparts)
      show 3 ≤ (joinParts _ ++ crlf).length
      rw [List.length_append]
      have hcrlf : crlf.length = 2 := rfl
      omega

/-! ## Reading again -/

/-- Accepted frames whose inline commands can be read again are parsed back. -/
theorem parseFrameAt_reencode {f : Frame} (haccepted : f.Accepted) (hread : f.Rereadable)
    (hsmall : f.encode.length < 2 ^ 63) :
    ∀ {levels : Nat}, f.depth ≤ levels → ∀ rest : Bytes,
      parseFrameAt levels (f.encode ++ rest) = .ok (f, rest) := by
  induction haccepted with
  | @typed f hinline htext hchildren ih =>
      intro levels hdepth rest
      rcases Nat.exists_eq_succ_of_ne_zero (Nat.ne_of_gt (lt_of_lt_of_le f.depth_pos hdepth)) with
        ⟨levels, rfl⟩
      have hroom := encodes_length_ge fun c hc => (hchildren c hc).encode_length_ge
      refine parseFrameInner_encode hinline htext hsmall hroom (fun c hc rest => ?_) rest
      have hlt := Frame.depth_lt_of_mem_children hc
      have hle := encode_length_le_of_mem_children hc
      exact ih c hc ((Frame.rereadable_iff.mp hread).2 c hc) (by omega) (by omega) rest
  | @inline parts hparts =>
      intro levels hdepth rest
      rcases Nat.exists_eq_succ_of_ne_zero (Nat.ne_of_gt (lt_of_lt_of_le (Frame.depth_pos _) hdepth))
        with ⟨levels, rfl⟩
      have hstart := (Frame.rereadable_iff.mp hread).1 parts rfl
      rcases List.exists_cons_of_ne_nil (joinParts_ne_nil hparts) with ⟨b, line, hline⟩
      have hkind : isKind b = false := by
        rw [startsKind, hline] at hstart
        exact hstart
      have hencode : (Frame.inline parts).encode ++ rest = b :: (line ++ crlf ++ rest) := by
        show joinParts parts ++ crlf ++ rest = _
        rw [hline]
        rfl
      rw [hencode]
      exact (parseFrameInner_inline hkind _).trans (parseInline_joinParts hparts hline rest)

/-- If consecutive encodings are read as their frames, each of them is read as its frame. -/
theorem rereadable_of_readItems {parse : Parser Frame} {fs : List Frame}
    (hgood : ∀ f ∈ fs, f.Rereadable → ∀ rest, parse (f.encode ++ rest) = .ok (f, rest))
    (hbad : ∀ f ∈ fs, ∀ {input rest}, parse (f.encode ++ input) = .ok (f, rest) → f.Rereadable)
    {input rest : Bytes}
    (h : readItems parse fs.length (fs.flatMap Frame.encode ++ input) = .ok (fs, rest)) :
    ∀ f ∈ fs, f.Rereadable := by
  induction fs generalizing rest with
  | nil => simp
  | cons f fs ih =>
      rcases List.forall_mem_cons.mp hgood with ⟨hgoodf, hgoodfs⟩
      rcases List.forall_mem_cons.mp hbad with ⟨hbadf, hbadfs⟩
      simp only [List.length_cons, List.flatMap_cons, List.append_assoc, readItems, bind_eq_ok_iff,
        Prod.exists] at h
      rcases h with ⟨g, input', hf, gs, input'', hfs, heq⟩
      simp only [Except.ok.injEq, Prod.mk.injEq, List.cons.injEq] at heq
      rcases heq with ⟨⟨rfl, rfl⟩, rfl⟩
      have hreread := hbadf hf
      rw [hgoodf hreread] at hf
      cases hf
      exact List.forall_mem_cons.mpr ⟨hreread, ih hgoodfs hbadfs hfs⟩

/-- Only frames whose inline commands can be read again are parsed back. -/
theorem rereadable_of_parse {f : Frame} (haccepted : f.Accepted)
    (hsmall : f.encode.length < 2 ^ 63) :
    ∀ {levels : Nat}, f.depth ≤ levels → ∀ {input rest : Bytes},
      parseFrameAt levels (f.encode ++ input) = .ok (f, rest) → f.Rereadable := by
  induction haccepted with
  | @typed f hinline htext hchildren ih =>
      intro levels hdepth input rest h
      rcases Nat.exists_eq_succ_of_ne_zero (Nat.ne_of_gt (lt_of_lt_of_le f.depth_pos hdepth)) with
        ⟨levels, rfl⟩
      refine Frame.rereadable_iff.mpr ⟨fun parts hf => absurd hf (hinline parts), ?_⟩
      have hroom := encodes_length_ge fun c hc => (hchildren c hc).encode_length_ge
      have hlength : f.encode.length =
          (f.head none).length + (f.children.flatMap Frame.encode).length := by
        rw [Frame.encode_eq, List.length_append]
      rw [Frame.encode_eq, List.append_assoc] at h
      have hfits : 3 * f.children.length ≤ (f.children.flatMap Frame.encode ++ input).length := by
        rw [List.length_append]
        omega
      have hitems := (parseFrameInner_head hinline htext (by omega) hfits).symm.trans h
      cases hread : readItems (parseFrameAt levels) f.children.length
          (f.children.flatMap Frame.encode ++ input) with
      | error error => simp [hread] at hitems
      | ok read =>
          simp only [hread, map_ok, Except.ok.injEq, Prod.mk.injEq] at hitems
          have hcount := readItems_length hread
          have hsame : read.1 = f.children := by
            rw [← Frame.children_rebuild hcount, hitems.1]
          have hchild (c : Frame) (hc : c ∈ f.children) :
              c.depth ≤ levels ∧ c.encode.length < 2 ^ 63 := by
            have hlt := Frame.depth_lt_of_mem_children hc
            have hle := encode_length_le_of_mem_children hc
            constructor <;> omega
          have hagain : readItems (parseFrameAt levels) f.children.length
              (f.children.flatMap Frame.encode ++ input) = .ok (f.children, read.2) := by
            rw [hread, ← hsame]
          refine rereadable_of_readItems ?_ ?_ hagain
          · intro c hc hgood rest
            exact parseFrameAt_reencode (hchildren c hc) hgood (hchild c hc).2 (hchild c hc).1 rest
          · intro c hc input rest hparse
            exact ih c hc (hchild c hc).2 (hchild c hc).1 hparse
  | @inline parts hparts =>
      intro levels hdepth input rest h
      refine Frame.rereadable_iff.mpr ⟨?_, by simp [Frame.children]⟩
      intro parts' heq
      cases heq
      rcases Nat.exists_eq_succ_of_ne_zero (Nat.ne_of_gt (lt_of_lt_of_le (Frame.depth_pos _) hdepth))
        with ⟨levels, rfl⟩
      rcases List.exists_cons_of_ne_nil (joinParts_ne_nil hparts) with ⟨b, line, hline⟩
      have hencode : (Frame.inline parts).encode ++ input = b :: (line ++ crlf ++ input) := by
        show joinParts parts ++ crlf ++ input = _
        rw [hline]
        rfl
      rw [hencode] at h
      have hcases := parseFrameInner_cases (P := fun _ => True)
        (fun hle hparse => ⟨trivial, (Frame.Accepted.of_parse hle hparse).2⟩) le_rfl h
      rcases hcases.2 with ⟨parts, hkind, -, -⟩ | hparsed
      · rw [startsKind, hline]
        exact hkind
      · exact absurd rfl (hparsed.inline parts)

/-! ## Unique readability -/

/-- An accepted inline command that can be read again does not start like any other
frame, and its line determines its arguments. -/
theorem parts_inj {parts others : List Bytes} (h : ParsedParts parts) (hothers : ParsedParts others)
    (hjoin : joinParts parts = joinParts others) : parts = others := by
  have hread := fun (parts : List Bytes) (h : ParsedParts parts) (b : UInt8) (line : Bytes)
      (hline : joinParts parts = b :: line) => parseInline_joinParts h hline []
  rcases List.exists_cons_of_ne_nil (joinParts_ne_nil h) with ⟨b, line, hline⟩
  have hsame := (hread parts h b line hline).symm.trans (hread others hothers b line (hjoin ▸ hline))
  simpa using hsame

theorem Frame.Accepted.head_inline {parts : List Bytes} (h : ParsedParts parts)
    (hread : (Frame.inline parts).Rereadable) :
    ∃ b line, joinParts parts = b :: line ∧ isKind b = false := by
  rcases List.exists_cons_of_ne_nil (joinParts_ne_nil h) with ⟨b, line, hline⟩
  refine ⟨b, line, hline, ?_⟩
  have hstart := (Frame.rereadable_iff.mp hread).1 parts rfl
  rw [startsKind, hline] at hstart
  exact hstart

theorem isKind_kind {f : Frame} (h : ∀ parts, f ≠ .inline parts) : isKind (byteOf f.kind) = true := by
  cases f with
  | inline parts => exact absurd rfl (h parts)
  | _ => rfl

/-- A frame other than an inline command does not start like one that can be read again. -/
theorem Frame.Accepted.ne_inline {f : Frame} (hinline : ∀ parts, f ≠ .inline parts)
    {parts : List Bytes} (hparts : ParsedParts parts) (hread : (Frame.inline parts).Rereadable)
    (s t : Bytes) : f.encode ++ s ≠ (Frame.inline parts).encode ++ t := by
  intro h
  rcases Frame.Accepted.head_inline hparts hread with ⟨b, line, hline, hkind⟩
  have hencode : (Frame.inline parts).encode ++ t = b :: (line ++ crlf ++ t) := by
    show joinParts parts ++ crlf ++ t = _
    rw [hline]
    rfl
  rw [Frame.encode_eq, Frame.head_eq_line hinline, hencode] at h
  rw [← (List.cons.inj h).1, isKind_kind hinline] at hkind
  cases hkind

/-- The bytes of an accepted frame whose inline commands can be read again, and whatever
follows, determine the frame. -/
theorem Frame.Accepted.encode_append_inj {f g : Frame} (hf : f.Accepted) (hg : g.Accepted)
    (hfread : f.Rereadable) (hgread : g.Rereadable) {s t : Bytes}
    (h : f.encode ++ s = g.encode ++ t) : f = g ∧ s = t := by
  induction hf generalizing g s t with
  | @typed f hinline htext hchildren ih =>
      cases hg with
      | inline hparts => exact absurd h (Frame.Accepted.ne_inline hinline hparts hgread s t)
      | typed hginline hgtext hgchildren =>
          rw [Frame.encode_eq f, Frame.encode_eq g, List.append_assoc, List.append_assoc] at h
          rcases Frame.head_append_inj hinline htext hginline hgtext h with ⟨hshell, hlength, hbytes⟩
          have hchild : ∀ c ∈ f.children, ∀ d ∈ g.children, ∀ s t,
              c.encode ++ s = d.encode ++ t → c = d ∧ s = t := fun c hc d hd s t =>
            ih c hc (hgchildren d hd) ((Frame.rereadable_iff.mp hfread).2 c hc)
              ((Frame.rereadable_iff.mp hgread).2 d hd)
          rcases Frame.encodes_append_inj_of hchild hlength hbytes with ⟨hsame, hrest⟩
          refine ⟨?_, hrest⟩
          rw [← hshell, ← hsame, Frame.rebuild_children]
  | @inline parts hparts =>
      cases hg with
      | typed hginline => exact absurd h.symm (Frame.Accepted.ne_inline hginline hparts hfread t s)
      | inline hothers =>
          have hsplit := congrArg splitLine h
          have hline : ∀ {parts : List Bytes}, ParsedParts parts → ∀ s,
              splitLine ((Frame.inline parts).encode ++ s) = some (joinParts parts, s) :=
            fun hparts s => splitLine_append (noCrlf_joinParts hparts) s
          rw [hline hparts, hline hothers] at hsplit
          simp only [Option.some.injEq, Prod.mk.injEq] at hsplit
          exact ⟨congrArg Frame.inline (parts_inj hparts hothers hsplit.1), hsplit.2⟩

theorem Frame.Typed.accepted {f : Frame} (h : f.Typed) : f.Accepted := by
  induction f using Frame.childInduction with
  | step f ih =>
      rcases Frame.typed_iff.mp h with ⟨hinline, htext, hchildren⟩
      exact .typed hinline htext fun c hc => ih c hc (hchildren c hc)

theorem Frame.Accepted.typed_of_inlineFree {f : Frame} (h : f.Accepted) (hinline : f.InlineFree) :
    f.Typed := by
  induction h with
  | @typed f hhere htext _ ih =>
      exact Frame.typed_iff.mpr
        ⟨hhere, htext, fun c hc => ih c hc (hinline.of_mem_children hc)⟩
  | inline _ => exact absurd rfl (hinline.ne_inline _)

theorem Frame.Typed.rereadable {f : Frame} (h : f.Typed) : f.Rereadable := by
  induction f using Frame.childInduction with
  | step f ih =>
      rcases Frame.typed_iff.mp h with ⟨hinline, -, hchildren⟩
      exact Frame.rereadable_iff.mpr
        ⟨fun parts hf => absurd hf (hinline parts), fun c hc => ih c hc (hchildren c hc)⟩

/-! ## Reparsed frames -/

/-- A parsed frame is parsed back from its encoding exactly when no inline command in it
starts with a kind byte. -/
theorem parseFrame_reencode_iff (p : Bytes) (f : Frame) (h : parseFrame p = .ok f)
    (hsize : f.encode.length ≤ maxFrameBytes) :
    parseFrame f.encode = .ok f ↔ f.Rereadable := by
  have hmax : maxFrameBytes < 2 ^ 63 := by decide
  have hsmall : f.encode.length < 2 ^ 63 := by omega
  rcases Frame.Accepted.of_parseFrame h with ⟨haccepted, hdepth, -⟩
  constructor
  · intro hagain
    unfold parseFrame at hagain
    rw [if_neg (by omega)] at hagain
    rcases bind_eq_ok_iff.mp hagain with ⟨⟨g, rest⟩, hparse, heq⟩
    simp only at heq
    split at heq
    · cases heq
    · cases heq
      rw [← List.append_nil f.encode] at hparse
      exact rereadable_of_parse haccepted hsmall hdepth hparse
  · intro hread
    have hparse := parseFrameAt_reencode haccepted hread hsmall hdepth []
    rw [List.append_nil] at hparse
    simp only [parseFrame]
    rw [if_neg (by omega), hparse, ok_bind]
    simp

/-- An inline command after a blank: the blank is lost, and the simple string that
follows is read instead. -/
theorem parseFrame_reencode_blank :
    ∃ p f, parseFrame p = .ok f ∧ f.encode.length ≤ maxFrameBytes ∧ parseFrame f.encode ≠ .ok f :=
  ⟨asBytes " +OK\r\n", .inline [asBytes "+OK"], by decide, by decide, by decide⟩

/-- Two spaces between the arguments become one. -/
theorem parseFrame_reencode_spaces :
    parseFrame (asBytes "GET  k\r\n") = .ok (.inline [asBytes "GET", asBytes "k"]) ∧
      (parseFrame (Frame.inline [asBytes "GET", asBytes "k"]).encode =
          .ok (.inline [asBytes "GET", asBytes "k"]) ↔
        (Frame.inline [asBytes "GET", asBytes "k"]).Rereadable) :=
  ⟨by decide, parseFrame_reencode_iff (asBytes "GET  k\r\n") _ (by decide) (by decide)⟩

end Resp
end EvilResp
