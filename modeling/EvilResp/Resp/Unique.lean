import EvilResp.Resp.Path
import EvilResp.Resp.RoundTrip

/-!
# Unique readability

The encoding of a typed frame determines the frame, also when other bytes follow
it, and without any bound on sizes or nesting.  A head is its kind byte, one line
and the body of a blob; the line tells apart null forms and lengths, and the body
has the length that the line announces.

Main results:

- Theorem {lit}`Frame.encode_append_inj`: equal bytes start with the same frame.
- Theorem {lit}`Frame.encode_inj`: different typed frames have different encodings.
-/

namespace EvilResp
namespace Resp

open Library
open EvilResp.Resp.Frame (byteOf crlf)

namespace Frame

/-- What the parser guarantees of a frame that is no inline command. -/
structure Typed (f : Frame) : Prop where
  inlineFree : f.InlineFree
  crlfFree : f.CrlfFree

theorem typed_iff {f : Frame} :
    f.Typed ↔ (∀ parts, f ≠ .inline parts) ∧ (∀ value, f.text = some value → NoCrlf (asBytes value)) ∧
      ∀ c ∈ f.children, c.Typed := by
  constructor
  · intro h
    refine ⟨h.inlineFree.ne_inline, ?_, ?_⟩
    · intro value hvalue
      exact of_decide_eq_true (h.crlfFree.text hvalue)
    · intro c hc
      exact ⟨h.inlineFree.of_mem_children hc, h.crlfFree.of_mem_children hc⟩
  · rintro ⟨hinline, htext, hchildren⟩
    constructor
    · exact inlineFree_iff.mpr ⟨hinline, fun c hc => (hchildren c hc).inlineFree⟩
    · refine textAll_iff.mpr ⟨?_, fun c hc => (hchildren c hc).crlfFree⟩
      intro value hvalue
      exact decide_eq_true (htext value hvalue)

theorem Typed.of_mem_children {f c : Frame} (h : f.Typed) (hc : c ∈ f.children) : c.Typed :=
  (typed_iff.mp h).2.2 c hc

instance : DecidablePred Typed := fun f =>
  decidable_of_iff (f.InlineFree ∧ f.CrlfFree)
    ⟨fun h => ⟨h.1, h.2⟩, fun h => ⟨h.inlineFree, h.crlfFree⟩⟩

/-! ## Heads -/

/-- The byte a frame starts with. -/
def kind : Frame → Char
  | .simpleString _ => '+'
  | .simpleError _ => '-'
  | .integer _ => ':'
  | .bulkString _ => '$'
  | .array _ => '*'
  | .null => '_'
  | .boolean _ => '#'
  | .double _ => ','
  | .bigNumber _ => '('
  | .bulkError _ => '!'
  | .verbatimString _ => '='
  | .map _ => '%'
  | .set _ => '~'
  | .push _ => '>'
  | .attribute _ => '|'
  | .inline _ => ' '

/-- The text after the kind byte: a scalar, or the length that is advertised. -/
def line : Frame → String
  | .integer value => toString value.toInt
  | .boolean value => if value then "t" else "f"
  | f =>
      match f.declaredLength with
      | some length => toString length
      | none => f.text.getD ""

/-- The bytes after the line of a blob. -/
def body : Frame → Bytes
  | .bulkString (some bytes) => bytes ++ crlf
  | .bulkError bytes => bytes ++ crlf
  | .verbatimString bytes => bytes ++ crlf
  | _ => []

theorem head_eq_line {f : Frame} (hinline : ∀ parts, f ≠ .inline parts) :
    f.head none = byteOf f.kind :: (asBytes f.line ++ crlf ++ f.body) := by
  cases f with
  | bulkString bytes =>
      cases bytes with
      | none => rfl
      | some bytes =>
          simp only [head, kind, pushLine, pushBlob, body, List.cons_append, List.append_assoc]
          rfl
  | bulkError bytes =>
      simp only [head, kind, pushLine, pushBlob, body, List.cons_append, List.append_assoc]
      rfl
  | verbatimString bytes =>
      simp only [head, kind, pushLine, pushBlob, body, List.cons_append, List.append_assoc]
      rfl
  | array items =>
      cases items with
      | none => rfl
      | some items =>
          simp only [head, kind, pushLine, body, List.append_nil]
          rfl
  | boolean value => cases value <;> rfl
  | inline parts => exact absurd rfl (hinline parts)
  | _ =>
      simp only [head, kind, pushLine, body, List.append_nil]
      rfl

theorem line_of_declaredLength {f : Frame} {n : Int} (h : f.declaredLength = some n) :
    f.line = toString n := by
  cases f with
  | integer value => cases h
  | boolean value => cases h
  | _ => simp only [line, h]

theorem noCrlf_line {f : Frame} (htext : ∀ value, f.text = some value → NoCrlf (asBytes value)) :
    NoCrlf (asBytes f.line) := by
  have hlf : ∀ n : Int, NoCrlf (asBytes (toString n)) := fun n =>
    noCrlf_of_not_mem (lf_not_mem_toString n)
  have hempty : NoCrlf (asBytes "") := by decide
  cases hlength : f.declaredLength with
  | some n =>
      rw [line_of_declaredLength hlength]
      exact hlf n
  | none =>
      cases f with
      | integer value => exact hlf _
      | boolean value => cases value <;> decide
      | simpleString value => exact htext value rfl
      | simpleError value => exact htext value rfl
      | double value => exact htext value rfl
      | bigNumber value => exact htext value rfl
      | bulkString bytes => cases bytes <;> cases hlength
      | array items => cases items <;> cases hlength
      | null => exact hempty
      | inline parts => exact hempty
      | _ => cases hlength

theorem toString_int_injective {m n : Int} (h : toString m = toString n) : m = n := by
  have hm : parseInteger (min (min m n) 0) (max (max m n) 0) (toString m) = .ok m :=
    parseInteger_toString (by omega) (by omega) (by omega) (by omega)
  have hn : parseInteger (min (min m n) 0) (max (max m n) 0) (toString n) = .ok n :=
    parseInteger_toString (by omega) (by omega) (by omega) (by omega)
  rw [h, hn] at hm
  exact (Except.ok.inj hm).symm

/-- Two lines that advertise lengths advertise the same one. -/
theorem declaredLength_eq {f g : Frame} {m n : Int} (hf : f.declaredLength = some m)
    (hg : g.declaredLength = some n) (hline : f.line = g.line) : m = n := by
  rw [line_of_declaredLength hf, line_of_declaredLength hg] at hline
  exact toString_int_injective hline

theorem byteOf_kind_injective {f g : Frame} (h : byteOf f.kind = byteOf g.kind) :
    f.kind = g.kind := by
  have hascii : ∀ f : Frame, f.kind.toNat < 256 := by
    intro f
    unfold kind
    split <;> decide
  have hnat := congrArg UInt8.toNat h
  simp only [byteOf, UInt8.toNat_ofNat', Nat.mod_eq_of_lt (hascii _)] at hnat
  exact Char.toNat_inj.mp hnat

/-- Bodies of equal length end at the same place. -/
theorem body_append_inj {a b s t : Bytes} (hlength : (a.length : Int) = b.length)
    (h : a ++ crlf ++ s = b ++ crlf ++ t) : a = b ∧ s = t := by
  rw [List.append_assoc, List.append_assoc] at h
  obtain ⟨hbody, hrest⟩ := List.append_inj h (by exact_mod_cast hlength)
  exact ⟨hbody, List.append_cancel_left hrest⟩

/-- Equal lines belong to two nulls, or to contents of the same length. -/
theorem nullable_cases {α : Type} {make : Option (List α) → Frame} {a b : Option (List α)}
    (hnull : (make none).declaredLength = some (-1))
    (hmake : ∀ content, (make (some content)).declaredLength = some (content.length : Int))
    (hline : (make a).line = (make b).line) :
    (a = none ∧ b = none) ∨
      ∃ c d, a = some c ∧ b = some d ∧ (c.length : Int) = d.length := by
  cases a with
  | none =>
      cases b with
      | none => exact .inl ⟨rfl, rfl⟩
      | some d =>
          have hlength := declaredLength_eq hnull (hmake d) hline
          omega
  | some c =>
      cases b with
      | none =>
          have hlength := declaredLength_eq (hmake c) hnull hline
          omega
      | some d => exact .inr ⟨c, d, rfl, rfl, declaredLength_eq (hmake c) (hmake d) hline⟩

/-- Equal heads belong to frames that differ in their children only. -/
theorem head_append_inj {f g : Frame} (hf : ∀ parts, f ≠ .inline parts)
    (hftext : ∀ value, f.text = some value → NoCrlf (asBytes value))
    (hg : ∀ parts, g ≠ .inline parts)
    (hgtext : ∀ value, g.text = some value → NoCrlf (asBytes value)) {s t : Bytes}
    (h : f.head none ++ s = g.head none ++ t) :
    f.rebuild g.children = g ∧ f.children.length = g.children.length ∧ s = t := by
  rw [head_eq_line hf, head_eq_line hg, List.cons_append, List.cons_append, List.cons.injEq,
    List.append_assoc _ f.body, List.append_assoc _ g.body] at h
  obtain ⟨hbyte, hrest⟩ := h
  have hkind := byteOf_kind_injective hbyte
  have hsplit := congrArg splitLine hrest
  rw [splitLine_append (noCrlf_line hftext), splitLine_append (noCrlf_line hgtext),
    Option.some.injEq, Prod.mk.injEq] at hsplit
  obtain ⟨hlineBytes, hbody⟩ := hsplit
  have hline := asBytes_injective hlineBytes
  clear hbyte hrest hlineBytes
  cases f <;> cases g <;> simp [kind] at hkind
  case simpleString.simpleString a b =>
    obtain rfl : a = b := hline
    exact ⟨rfl, rfl, hbody⟩
  case simpleError.simpleError a b =>
    obtain rfl : a = b := hline
    exact ⟨rfl, rfl, hbody⟩
  case double.double a b =>
    obtain rfl : a = b := hline
    exact ⟨rfl, rfl, hbody⟩
  case bigNumber.bigNumber a b =>
    obtain rfl : a = b := hline
    exact ⟨rfl, rfl, hbody⟩
  case integer.integer a b =>
    obtain rfl : a = b := Int64.toInt_inj.mp (toString_int_injective hline)
    exact ⟨rfl, rfl, hbody⟩
  case boolean.boolean a b =>
    have hvalue : a = b := by
      cases a <;> cases b <;> first | rfl | exact absurd hline (by decide)
    subst hvalue
    exact ⟨rfl, rfl, hbody⟩
  case null.null => exact ⟨rfl, rfl, hbody⟩
  case inline.inline parts _ => exact absurd rfl (hf parts)
  case bulkString.bulkString a b =>
    rcases nullable_cases rfl (fun _ => rfl) hline with ⟨rfl, rfl⟩ | ⟨c, d, rfl, rfl, hlength⟩
    · exact ⟨rfl, rfl, hbody⟩
    · obtain ⟨rfl, hrest⟩ := body_append_inj hlength hbody
      exact ⟨rfl, rfl, hrest⟩
  case bulkError.bulkError a b =>
    obtain ⟨rfl, hrest⟩ := body_append_inj (declaredLength_eq rfl rfl hline) hbody
    exact ⟨rfl, rfl, hrest⟩
  case verbatimString.verbatimString a b =>
    obtain ⟨rfl, hrest⟩ := body_append_inj (declaredLength_eq rfl rfl hline) hbody
    exact ⟨rfl, rfl, hrest⟩
  case array.array a b =>
    rcases nullable_cases rfl (fun _ => rfl) hline with ⟨rfl, rfl⟩ | ⟨c, d, rfl, rfl, hlength⟩
    · exact ⟨rfl, rfl, hbody⟩
    · exact ⟨rfl, by exact_mod_cast hlength, hbody⟩
  case set.set a b =>
    have hlength : (a.length : Int) = b.length := declaredLength_eq rfl rfl hline
    exact ⟨rfl, by exact_mod_cast hlength, hbody⟩
  case push.push a b =>
    have hlength : (a.length : Int) = b.length := declaredLength_eq rfl rfl hline
    exact ⟨rfl, by exact_mod_cast hlength, hbody⟩
  case map.map a b =>
    have hlength : (a.length : Int) = b.length := declaredLength_eq rfl rfl hline
    refine ⟨congrArg Frame.map (pairUp_flatMap b), ?_, hbody⟩
    simp only [children, length_flatten_pairs]
    omega
  case attribute.attribute a b =>
    have hlength : (a.length : Int) = b.length := declaredLength_eq rfl rfl hline
    refine ⟨congrArg Frame.attribute (pairUp_flatMap b), ?_, hbody⟩
    simp only [children, length_flatten_pairs]
    omega

/-! ## Whole frames -/

/-- Equally long lists of frames with equal bytes are equal, if each frame is
determined by its bytes. -/
theorem encodes_append_inj_of {fs gs : List Frame}
    (ih : ∀ f ∈ fs, ∀ g ∈ gs, ∀ s t, f.encode ++ s = g.encode ++ t → f = g ∧ s = t)
    (hlength : fs.length = gs.length) {s t : Bytes}
    (h : fs.flatMap encode ++ s = gs.flatMap encode ++ t) : fs = gs ∧ s = t := by
  induction fs generalizing gs with
  | nil =>
      obtain rfl := List.length_eq_zero_iff.mp hlength.symm
      exact ⟨rfl, h⟩
  | cons f fs hrec =>
      obtain ⟨g, gs, rfl⟩ := List.exists_cons_of_length_eq_add_one hlength.symm
      rw [List.flatMap_cons, List.flatMap_cons, List.append_assoc, List.append_assoc] at h
      obtain ⟨rfl, hrest⟩ := ih f List.mem_cons_self g List.mem_cons_self _ _ h
      have hlater := fun f hf g hg => ih f (List.mem_cons_of_mem _ hf) g (List.mem_cons_of_mem _ hg)
      obtain ⟨rfl, hend⟩ := hrec hlater (Nat.succ.inj hlength) hrest
      exact ⟨rfl, hend⟩

/-- The bytes of a typed frame, and whatever follows, determine the frame. -/
theorem encode_append_inj {f g : Frame} (hf : f.Typed) (hg : g.Typed) {s t : Bytes}
    (h : f.encode ++ s = g.encode ++ t) : f = g ∧ s = t := by
  induction f using childInduction generalizing g s t with
  | step f ih =>
      rw [encode_eq f, encode_eq g, List.append_assoc, List.append_assoc] at h
      obtain ⟨hfinline, hftext, -⟩ := typed_iff.mp hf
      obtain ⟨hginline, hgtext, -⟩ := typed_iff.mp hg
      obtain ⟨hshell, hlength, hbytes⟩ := head_append_inj hfinline hftext hginline hgtext h
      have hchild : ∀ c ∈ f.children, ∀ d ∈ g.children, ∀ s t,
          c.encode ++ s = d.encode ++ t → c = d ∧ s = t := fun c hc d hd s t =>
        ih c hc (hf.of_mem_children hc) (hg.of_mem_children hd)
      obtain ⟨hchildren, hrest⟩ := encodes_append_inj_of hchild hlength hbytes
      refine ⟨?_, hrest⟩
      rw [← hshell, ← hchildren, rebuild_children]

/-- Different typed frames have different encodings. -/
theorem encode_inj {f g : Frame} (hf : f.Typed) (hg : g.Typed) (h : f.encode = g.encode) :
    f = g := by
  have happend : f.encode ++ [] = g.encode ++ [] := by rw [h]
  exact (encode_append_inj hf hg happend).1

end Frame

end Resp
end EvilResp
