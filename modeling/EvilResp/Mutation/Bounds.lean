import EvilResp.Mutation.Fresh
import EvilResp.Resp.RoundTrip

/-!
# Bounds of generated frames

The bounds on every frame of a generated tree bound the whole tree: its frames, its
encoding, and that the parser reads it back.

Main results:

- Theorem {lit}`Bounded.head_length_le`: the head of a bounded frame is short.
- Theorem {lit}`GeneratorConfig.all_frame_bounds`: generated frames are small, are read
  back, and without violations fit the protocol.
-/

namespace EvilResp

open Library
open EvilResp.Resp
open EvilResp.Resp.Frame (byteOf crlf)

/-! ## Heads -/

theorem length_asBytes_toString_nat_le {n : Nat} (h : n ≤ maxBlobBytes) :
    (asBytes (toString n)).length ≤ 4 :=
  length_asBytes_repr_le (by decide) (h.trans_lt (by decide))

/-- The digits of a 64-bit integer and its sign. -/
theorem length_asBytes_toString_int64_le (value : Int64) :
    (asBytes (toString value.toInt)).length ≤ 20 := by
  have hlow := Int64.le_toInt value
  have hhigh := Int64.toInt_lt value
  cases hvalue : value.toInt with
  | ofNat n =>
      rw [hvalue] at hhigh
      have hn : n < 10 ^ 20 := by
        have hlt : (n : Int) < 2 ^ 63 := hhigh
        omega
      exact length_asBytes_repr_le (by decide) hn
  | negSucc n =>
      rw [hvalue] at hlow
      have hn : n + 1 < 10 ^ 19 := by omega
      have htext : toString (Int.negSucc n) = "-" ++ (n + 1).repr := rfl
      have hsign : (asBytes "-").length = 1 := by decide
      have hdigits := length_asBytes_repr_le (k := 19) (by decide) hn
      rw [htext, asBytes_append, List.length_append]
      omega

/-- Either the line of a head is short, or the digits of its length are few. -/
theorem Bounded.line_body {f : Frame} (h : Bounded f) :
    (asBytes f.line).length ≤ 400 ∧ f.body = [] ∨
      (asBytes f.line).length ≤ 4 ∧ f.body.length ≤ maxBlobBytes + 2 := by
  have hnull : (asBytes (toString (-1 : Int))).length ≤ 400 := by decide
  have hcount : ∀ {n : Nat}, n ≤ maxItems → (asBytes (toString (n : Int))).length ≤ 400 := by
    intro n hn
    have hdigits := length_asBytes_toString_nat_le (hn.trans (by decide))
    rw [toString_natCast]
    omega
  have hblob : ∀ {bytes : Bytes}, bytes.length ≤ maxBlobBytes →
      (asBytes (toString (bytes.length : Int))).length ≤ 4 ∧
        (bytes ++ crlf).length ≤ maxBlobBytes + 2 := by
    intro bytes hbytes
    have hdigits := length_asBytes_toString_nat_le hbytes
    have hcrlf : crlf.length = 2 := rfl
    rw [toString_natCast, List.length_append]
    omega
  cases f with
  | simpleString s => exact .inl ⟨h.short, rfl⟩
  | simpleError s => exact .inl ⟨h.short, rfl⟩
  | double s => exact .inl ⟨h.short, rfl⟩
  | bigNumber s => exact .inl ⟨h.short, rfl⟩
  | integer value =>
      exact .inl ⟨(length_asBytes_toString_int64_le value).trans (by decide), rfl⟩
  | boolean value => cases value <;> exact .inl ⟨by decide, rfl⟩
  | null => exact .inl ⟨by decide, rfl⟩
  | bulkString bytes =>
      cases bytes with
      | none => exact .inl ⟨hnull, rfl⟩
      | some bytes => exact .inr (hblob h)
  | bulkError bytes => exact .inr (hblob h)
  | verbatimString bytes => exact .inr (hblob h)
  | array items =>
      cases items with
      | none => exact .inl ⟨hnull, rfl⟩
      | some items => exact .inl ⟨hcount h, rfl⟩
  | set items => exact .inl ⟨hcount h.1, rfl⟩
  | push items => exact .inl ⟨hcount h, rfl⟩
  | map pairs => exact .inl ⟨hcount h.1, rfl⟩
  | «attribute» pairs => exact .inl ⟨hcount h.1, rfl⟩
  | inline parts => cases h

/-- The head of a bounded frame is short. -/
theorem Bounded.head_length_le {f : Frame} (h : Bounded f) : (f.head none).length ≤ 4110 := by
  have hinline : ∀ parts, f ≠ .inline parts := by
    rintro parts rfl
    exact h
  have hcrlf : crlf.length = 2 := rfl
  have hmax : maxBlobBytes = 4097 := rfl
  rw [Frame.head_eq_line hinline, List.length_cons, List.length_append, List.length_append, hcrlf]
  rcases h.line_body with ⟨hline, hbody⟩ | ⟨hline, hbody⟩
  · rw [hbody, List.length_nil]
    omega
  · omega

/-- Aggregates have four elements, or four pairs. -/
theorem Bounded.children_length_le {f : Frame} (h : Bounded f) : f.children.length ≤ 8 := by
  have hmax : maxItems = 4 := rfl
  have hpairs : ∀ {pairs : List (Frame × Frame)}, pairs.length ≤ maxItems →
      (pairs.flatMap fun pair => [pair.1, pair.2]).length ≤ 8 := by
    intro pairs hlength
    rw [length_flatten_pairs]
    omega
  have hitems : ∀ {items : List Frame}, items.length ≤ maxItems → items.length ≤ 8 := fun h => by
    omega
  cases f with
  | array items =>
      cases items with
      | none => exact Nat.zero_le 8
      | some items => exact hitems h
  | set items => exact hitems h.1
  | push items => exact hitems h
  | map pairs => exact hpairs h.1
  | «attribute» pairs => exact hpairs h.1
  | _ => exact Nat.zero_le 8

/-! ## Trees -/

namespace GeneratorConfig

/-- Generated frames are small and are read back, whatever the generator draws.  Without
violations all their frames fit the protocol. -/
theorem all_frame_bounds (lib : Externals) (hlib : lib.DisplaysDecimals)
    (config : GeneratorConfig) :
    (config.frame lib).All fun f =>
      f.depth ≤ 3 ∧ f.size ≤ 73 ∧ f.encode.length < 304 * 1024 ∧
        parseFrame f.encode = .ok f ∧ f.Everywhere Bounded ∧
        (config.violations = false → f.Everywhere (InProfile config.protocol)) := by
  refine Draw.all_mono (all_frameAt config hlib _) fun f hf => ?_
  have hdepth : f.depth ≤ 3 := hf.depth
  have hsize : f.size ≤ 73 :=
    Frame.size_le_of_branching (hf.bounded.mono fun c hc => hc.children_length_le) 2 hdepth
  have hlength : f.encode.length ≤ f.size * 4110 :=
    Frame.encode_length_le (hf.bounded.mono fun c hc => hc.head_length_le)
  have hmax : 304 * 1024 ≤ maxFrameBytes := by decide
  have htyped := (fresh_of_bounded hf.bounded).typed
  have hread : parseFrame f.encode = .ok f :=
    parseFrame_encode htyped.inlineFree htyped.crlfFree (hdepth.trans (by decide)) (by omega)
  exact ⟨hdepth, hsize, by omega, hread, hf.bounded, hf.profile⟩

/-- The RESP2 profile needs no floats. -/
theorem all_frame_bounds_resp2 :
    (({ protocol := .resp2 } : GeneratorConfig).frame
      { printable := fun _ => true, displayF64 := fun _ => "0",
        buildRegex := fun _ => .ok fun _ => true, hexEncode := fun _ => "", sha256 := id,
        blake3 := fun _ => "", tlsh := fun _ => "", chacha20 := fun _ _ => 0 }).All fun f =>
      f.depth ≤ 3 ∧ f.size ≤ 73 ∧ f.encode.length < 304 * 1024 ∧
        parseFrame f.encode = .ok f ∧ f.Everywhere Bounded ∧
        (false = false → f.Everywhere (InProfile .resp2)) :=
  all_frame_bounds _ (fun _ _ => show isDecimal "0" = true ∧ (asBytes "0").length ≤ 400 by decide)
    { protocol := .resp2 }

end GeneratorConfig

end EvilResp
