import EvilResp.Resp.Boundary

/-!
# The frames of a stream

The reader keeps the numbers of unread children on a stack.  What it takes from a stream
is described by a grammar without a stack: a head, the frames that it announces, and the
frames beside it.  All the lines of these frames end at the first line feed, so no text
that is parsed from them holds one.

Main results:

- Theorem {lit}`readRawFrame_iff`: the reader takes exactly the frames of the grammar that
  fit its limits, and nothing of what follows them.
- Theorem {lit}`readFrames_grammar`: so it divides a stream in the one way there is.
- Theorem {lit}`lfFree_of_readRawFrame`: a frame that was read and parsed has no line feed
  in its texts.
-/

namespace EvilResp

namespace Resp

open Library
open EvilResp.Resp.Frame (byteOf crlf)

/-! ## Grammar -/

/-- So many consecutive frames, nested at most so deep. -/
inductive Frames : Nat → Nat → Bytes → Prop where
  | nil (levels : Nat) : Frames levels 0 []
  | cons {levels children count : Nat} {head body rest : Bytes} : IsHead head children →
      Frames levels children body → Frames (levels + 1) count rest →
      Frames (levels + 1) (count + 1) (head ++ body ++ rest)

/-- The shortest frame has three bytes. -/
theorem Frames.length_ge {levels count : Nat} {bytes : Bytes} (h : Frames levels count bytes) :
    3 * count ≤ bytes.length := by
  induction h with
  | nil => simp
  | cons hhead _ _ _ ih =>
      have hlength := hhead.length_ge
      simp only [List.length_append]
      omega

theorem Frames.eq_nil {levels : Nat} {bytes : Bytes} (h : Frames levels 0 bytes) : bytes = [] := by
  cases h
  rfl

/-- What the levels of a stack still have to read. -/
inductive Unread : List Nat → Bytes → Prop where
  | nil : Unread [] []
  | level {count depth : Nat} {levels : List Nat} {bytes rest : Bytes} :
      levels.length + depth = maxFrameDepth → Frames depth count bytes → Unread levels rest →
      Unread (count :: levels) (bytes ++ rest)

/-! ## The reader takes frames -/

/-- An exhausted level has nothing to read. -/
theorem Unread.close {levels : List Nat} {bytes : Bytes} (hlevel : levels.length ≤ maxFrameDepth)
    (h : Unread levels bytes) : Unread (0 :: levels) bytes := by
  have hdepth : levels.length + (maxFrameDepth - levels.length) = maxFrameDepth := by omega
  exact .level hdepth (.nil _) h

/-- A head and the children it announces are one of the frames of its level. -/
theorem Unread.head {levels : List Nat} {remaining children : Nat} {head bytes : Bytes}
    (hhead : IsHead head children) (hlevel : levels.length < maxFrameDepth)
    (h : Unread (if children > 0 then children :: remaining :: levels else remaining :: levels)
      bytes) :
    Unread ((remaining + 1) :: levels) (head ++ bytes) := by
  have hframe {body tail rest : Bytes} {below : Nat}
      (hdepth : levels.length + (below + 1) = maxFrameDepth) (hbody : Frames below children body)
      (htail : Frames (below + 1) remaining tail) (hrest : Unread levels rest) :
      Unread ((remaining + 1) :: levels) (head ++ (body ++ (tail ++ rest))) := by
    have hunread := Unread.level hdepth (.cons hhead hbody htail) hrest
    simpa only [List.append_assoc] using hunread
  by_cases hchildren : children > 0
  · rw [if_pos hchildren] at h
    cases h with
    | @level _ below _ body _ hbelow hbody hlater =>
        cases hlater with
        | @level _ depth _ tail rest hdepth htail hrest =>
            rw [List.length_cons] at hbelow
            obtain rfl : depth = below + 1 := by omega
            exact hframe hdepth hbody htail hrest
  · rw [if_neg hchildren] at h
    obtain rfl : children = 0 := by omega
    cases h with
    | @level _ depth _ tail rest hdepth htail hrest =>
        obtain ⟨below, rfl⟩ : ∃ below, depth = below + 1 := ⟨depth - 1, by omega⟩
        exact hframe hdepth (.nil below) htail hrest

/-- A loop that succeeds read what its stack announced. -/
theorem readLoop_unread {s s' : ReadState} (h : readLoop s = .ok s')
    (hstack : s.pending.length ≤ maxFrameDepth + 1) :
    ∃ bytes, Unread s.pending bytes ∧ s.input = bytes ++ s'.input ∧ s'.raw = s.raw ++ bytes ∧
      (s.raw.length ≤ maxFrameBytes → s'.raw.length ≤ maxFrameBytes) := by
  induction hn : s.measure using Nat.strong_induction_on generalizing s with
  | _ n ih =>
      rcases readLoop_cases h with ⟨hnil, rfl⟩ | ⟨hpending, next, hstep, hnext⟩
      · exact ⟨[], hnil ▸ .nil, rfl, by simp, id⟩
      have hmeasure := hn ▸ readStep_measure hpending hstep
      rcases readStep_cases hstep with ⟨hnil, -⟩ | ⟨levels, hlevels, rfl⟩ |
        ⟨remaining, levels, head, children, rest, hlevels, hlevel, -, hhead, hrest, hfits, rfl⟩
      · exact absurd hnil hpending
      · rw [hlevels, List.length_cons] at hstack
        rcases ih _ hmeasure hnext (by simpa using hstack.trans' (Nat.le_succ _)) rfl with
          ⟨bytes, hbytes, hinput, hraw, hsize⟩
        exact ⟨bytes, hlevels ▸ hbytes.close (by omega), hinput, hraw, hsize⟩
      · have hdeeper : (if children > 0 then children :: remaining :: levels
            else remaining :: levels).length ≤ maxFrameDepth + 1 := by
          split_ifs
          · simpa using hlevel
          · simpa using hlevel.le
        rcases ih _ hmeasure hnext hdeeper rfl with ⟨bytes, hbytes, hinput, hraw, hsize⟩
        refine ⟨head ++ bytes, hlevels ▸ hbytes.head hhead hlevel, ?_, ?_, fun _ => hsize ?_⟩
        · rw [hrest, List.append_assoc]
          exact congrArg _ hinput
        · rw [hraw, List.append_assoc]
        · exact (Nat.le_add_right _ _).trans hfits

/-- After a head the children it announces are unread, before the frames of its level. -/
theorem Unread.opened {levels : List Nat} {below children remaining : Nat}
    {body tail later : Bytes} (hdepth : levels.length + (below + 1) = maxFrameDepth)
    (hbody : Frames below children body) (htail : Frames (below + 1) remaining tail)
    (hlater : Unread levels later) :
    Unread (if children > 0 then children :: remaining :: levels else remaining :: levels)
      (body ++ (tail ++ later)) := by
  have hlevel := Unread.level hdepth htail hlater
  by_cases hchildren : children > 0
  · rw [if_pos hchildren]
    apply Unread.level _ hbody hlevel
    rw [List.length_cons]
    omega
  · obtain rfl : children = 0 := by omega
    rw [if_neg hchildren, hbody.eq_nil, List.nil_append]
    exact hlevel

/-- What the stack announces is read, if it fits. -/
theorem readLoop_of_unread {s : ReadState} {bytes rest : Bytes} (h : Unread s.pending bytes)
    (hinput : s.input = bytes ++ rest) (hsize : s.raw.length + bytes.length ≤ maxFrameBytes) :
    readLoop s = .ok { raw := s.raw ++ bytes, pending := [], input := rest } := by
  induction hn : s.measure using Nat.strong_induction_on generalizing s bytes with
  | _ n ih =>
      rcases s with ⟨raw, pending, input⟩
      dsimp only at h hinput hsize ⊢
      cases h with
      | nil =>
          rw [readLoop_done rfl, List.append_nil, hinput, List.nil_append]
      | @level count depth levels bytes later hdepth hframes hlater =>
          cases hframes with
          | nil =>
              have hstep : readStep ⟨raw, 0 :: levels, input⟩ = .ok ⟨raw, levels, input⟩ :=
                readStep_close rfl
              have hmeasure := hn ▸ readStep_measure (by simp) hstep
              rw [readLoop_step (by simp) hstep]
              exact ih _ hmeasure hlater hinput hsize rfl
          | @cons below children remaining head body tail hhead hbody htail =>
              have hlength := hhead.length_ge
              have hchildren := hbody.length_ge
              simp only [List.length_append] at hsize
              have hfirst : input = head ++ (body ++ (tail ++ (later ++ rest))) := by
                simpa only [List.append_assoc] using hinput
              have hstep := readStep_head (s := ⟨raw, (remaining + 1) :: levels, input⟩) rfl
                (by omega) (by dsimp only; omega) hhead hfirst
                (by rw [List.length_append]; dsimp only; omega)
              have hmeasure := hn ▸ readStep_measure (by simp) hstep
              have hunread := Unread.opened hdepth hbody htail hlater
              rw [readLoop_step (by simp) hstep]
              have hloop := ih _ hmeasure hunread (by simp only [List.append_assoc])
                (by simp only [List.length_append]; omega) rfl
              rw [hloop]
              simp only [List.append_assoc]

/-- The reader takes exactly the frames of the grammar that fit, and nothing of what
follows them. -/
theorem readRawFrame_iff {input raw rest : Bytes} :
    readRawFrame input = .ok (raw, rest) ↔
      input = raw ++ rest ∧ raw.length ≤ maxFrameBytes ∧ Frames maxFrameDepth 1 raw := by
  constructor
  · intro h
    rcases bind_eq_ok_iff.mp h with ⟨last, hloop, hlast⟩
    cases hlast
    rcases readLoop_unread hloop (by simp) with ⟨bytes, hbytes, hinput, hraw, hsize⟩
    cases hbytes with
    | @level _ depth _ bytes later hdepth hframes hlater =>
        cases hlater
        rw [List.length_nil, Nat.zero_add] at hdepth
        rw [List.append_nil] at hinput hraw
        rw [List.nil_append] at hraw
        rw [hraw]
        exact ⟨hinput, hraw ▸ hsize (Nat.zero_le _), hdepth ▸ hframes⟩
  · rintro ⟨rfl, hsize, hframes⟩
    have hunread : Unread [1] (raw ++ []) := .level (by simp) hframes .nil
    rw [List.append_nil] at hunread
    have hloop := readLoop_of_unread (s := { raw := [], pending := [1], input := raw ++ rest })
      hunread rfl (by simpa using hsize)
    simp only [readRawFrame, hloop, ok_bind, List.nil_append]

/-- One frame of the grammar that fits. -/
structure IsFrame (raw : Bytes) : Prop where
  size : raw.length ≤ maxFrameBytes
  frames : Frames maxFrameDepth 1 raw

theorem isFrame_of_readRawFrame {input raw rest : Bytes}
    (h : readRawFrame input = .ok (raw, rest)) : IsFrame raw := by
  rcases readRawFrame_iff.mp h with ⟨-, hsize, hframes⟩
  exact ⟨hsize, hframes⟩

theorem IsFrame.readRawFrame {raw : Bytes} (h : IsFrame raw) (rest : Bytes) :
    readRawFrame (raw ++ rest) = .ok (raw, rest) :=
  readRawFrame_iff.mpr ⟨rfl, h.size, h.frames⟩

/-- Frames that follow each other are read one by one. -/
theorem readFrames_flatten {raws : List Bytes} (h : ∀ raw ∈ raws, IsFrame raw) (rest : Bytes) :
    readFrames raws.length (raws.flatten ++ rest) = .ok (raws, rest) := by
  induction raws with
  | nil => rfl
  | cons raw raws ih =>
      rcases List.forall_mem_cons.mp h with ⟨hraw, hraws⟩
      simp only [List.flatten_cons, List.append_assoc, List.length_cons, readFrames,
        hraw.readRawFrame, ok_bind, ih hraws]

/-- Reading a number of frames succeeds exactly if the stream begins with so many frames of
the grammar, and gives them. -/
theorem readFrames_grammar (n : Nat) (input : Bytes) (raws : List Bytes) (rest : Bytes) :
    readFrames n input = .ok (raws, rest) ↔
      raws.length = n ∧ input = raws.flatten ++ rest ∧ ∀ raw ∈ raws, IsFrame raw := by
  constructor
  · intro h
    induction n generalizing input raws with
    | zero =>
        cases h
        exact ⟨rfl, rfl, by simp⟩
    | succ n ih =>
        rw [readFrames] at h
        rcases bind_eq_ok_iff.mp h with ⟨⟨raw, after⟩, hraw, hlater⟩
        rcases bind_eq_ok_iff.mp hlater with ⟨⟨others, last⟩, hothers, heq⟩
        cases heq
        rcases ih after others hothers with ⟨hlength, hafter, hframes⟩
        refine ⟨congrArg (· + 1) hlength, ?_, List.forall_mem_cons.mpr ⟨?_, hframes⟩⟩
        · rw [(readRawFrame_iff.mp hraw).1, hafter, List.flatten_cons, List.append_assoc]
        · exact isFrame_of_readRawFrame hraw
  · rintro ⟨rfl, rfl, hframes⟩
    exact readFrames_flatten hframes rest

/-! ## Lines -/

theorem lfFree_leaf {f : Frame} (htext : f.text = none) (hchildren : f.children = []) : f.LfFree :=
  Frame.textAll_iff.mpr ⟨by simp [htext], by simp [hchildren]⟩

/-- The text of a line is a line. -/
theorem lfFree_text {f : Frame} {value : String} (htext : f.text = some value)
    (hchildren : f.children = []) (hline : (10 : UInt8) ∉ asBytes value) : f.LfFree := by
  refine Frame.textAll_iff.mpr ⟨fun other hother => ?_, by simp [hchildren]⟩
  rw [htext] at hother
  exact decide_eq_true (Option.some.inj hother ▸ hline)

section

variable {parse : Parser Frame} {kind : UInt8} {line segment more rest : Bytes} {f : Frame}

/-- A scalar that is parsed from one line is on one line. -/
theorem lfFree_scalar (hblob : isBlobKind kind = false) (haggregate : isAggregateKind kind = false)
    (hlf : (10 : UInt8) ∉ line)
    (h : parseFrameInner parse (kind :: (line ++ crlf ++ more)) = .ok (f, rest)) : f.LfFree := by
  rw [← Bool.not_eq_true, isBlobKind_iff] at hblob
  rw [← Bool.not_eq_true, isAggregateKind_iff] at haggregate
  have htext {value : String} {after : Bytes}
      (hvalue : takeUtf8Line (line ++ crlf ++ more) = .ok (value, after)) :
      (10 : UInt8) ∉ asBytes value := by
    rcases takeUtf8Line_cases hlf more with ⟨found, hfound, hline⟩ | ⟨error, -, hline⟩
    · rw [hline] at hvalue
      cases hvalue
      rwa [fromUtf8_eq_ok_iff.mp hfound]
    · rw [hline] at hvalue
      cases hvalue
  simp only [parseFrameInner] at h
  split at h <;> rename_i hchar
  case h_1 | h_2 | h_8 | h_9 =>
    rcases bind_eq_ok_iff.mp h with ⟨⟨value, after⟩, hvalue, heq⟩
    cases heq
    exact lfFree_text rfl rfl (htext hvalue)
  case h_3 =>
    rcases bind_eq_ok_iff.mp h with ⟨⟨value, after⟩, -, heq⟩
    cases heq
    exact lfFree_leaf rfl rfl
  case h_6 =>
    rcases bind_eq_ok_iff.mp h with ⟨⟨value, after⟩, -, heq⟩
    split at heq <;> cases heq
    exact lfFree_leaf rfl rfl
  case h_7 =>
    rcases bind_eq_ok_iff.mp h with ⟨⟨value, after⟩, -, heq⟩
    dsimp only at heq
    split_ifs at heq <;> cases heq <;> exact lfFree_leaf rfl rfl
  case h_16 =>
    rcases bind_eq_ok_iff.mp h with ⟨⟨value, after⟩, -, heq⟩
    cases heq
    exact lfFree_leaf rfl rfl
  case h_4 | h_5 | h_10 | h_11 | h_12 | h_13 | h_14 | h_15 => simp_all

/-- A blob has no text. -/
theorem lfFree_blob (hblob : isBlobKind kind = true)
    (h : parseFrameInner parse (kind :: more) = .ok (f, rest)) : f.LfFree := by
  rcases isBlobKind_iff.mp hblob with hkind | hkind | hkind <;>
    simp only [parseFrameInner, hkind] at h <;>
    rcases bind_eq_ok_iff.mp h with ⟨⟨bytes, after⟩, -, heq⟩ <;> cases heq <;>
    exact lfFree_leaf rfl rfl

/-- The children of an aggregate are the frames that were read after its line. -/
theorem lfFree_aggregate {count : Nat} (haggregate : isAggregateKind kind = true)
    (hlf : (10 : UInt8) ∉ line) (hlen : parseLen line (asChar kind = '*') = .ok (some count))
    (hfits : 3 * (if isPairedKind kind then count * 2 else count) ≤ segment.length)
    (hitems : ∀ items after,
      readItems parse (if isPairedKind kind then count * 2 else count) (segment ++ more) =
        .ok (items, after) → ∀ c ∈ items, c.LfFree)
    (h : parseFrameInner parse (kind :: (line ++ crlf ++ (segment ++ more))) = .ok (f, rest)) :
    f.LfFree := by
  rcases announces_of_parseLen hlf hlen with ⟨hn, -, -⟩ | ⟨n, hn, hline⟩
  · cases hn
  obtain rfl := Option.some.inj hn
  have hbuild (build : List Frame → Frame) {read : Except RespError (List Frame × Bytes)}
      (hread : read = readItems parse (if isPairedKind kind then count * 2 else count)
        (segment ++ more))
      (htext : ∀ items, (build items).text = none)
      (hmem : ∀ items, ∀ c ∈ (build items).children, c ∈ items)
      (hf : (read.map fun found => (build found.1, found.2)) = .ok (f, rest)) : f.LfFree := by
    subst hread
    cases hfound : readItems parse (if isPairedKind kind then count * 2 else count)
      (segment ++ more) with
    | error error => simp [hfound, Except.map] at hf
    | ok found =>
        rw [hfound] at hf
        cases hf
        refine Frame.textAll_iff.mpr ⟨by simp [htext], fun c hc => ?_⟩
        exact hitems _ _ hfound c (hmem _ c hc)
  have hpairs (items : List Frame) :
      ∀ c ∈ (pairUp items).flatMap fun pair => [pair.1, pair.2], c ∈ items := by
    intro c hc
    rcases List.mem_flatMap.mp hc with ⟨pair, hpair, hmem⟩
    rcases List.mem_pair.mp hmem with rfl | rfl
    · exact (mem_pairUp hpair).1
    · exact (mem_pairUp hpair).2
  by_cases hpaired : isPairedKind kind = true
  · rw [if_pos hpaired] at hfits hbuild
    have hread (build : List (Frame × Frame) → Frame) :
        parseMapLike parse build (line ++ crlf ++ (segment ++ more)) =
          (readItems parse (count * 2) (segment ++ more)).map fun found =>
            (build (pairUp found.1), found.2) := by
      rw [Nat.mul_comm count 2]
      refine parseMapLike_eq hline ?_
      rw [List.length_append]
      omega
    rcases (by simpa [isPairedKind] using hpaired : asChar kind = '%' ∨ asChar kind = '|')
      with hkind | hkind
    · simp only [parseFrameInner, hkind, hread] at h
      exact hbuild (fun items => .map (pairUp items)) rfl (fun _ => rfl) hpairs h
    · simp only [parseFrameInner, hkind, hread] at h
      exact hbuild (fun items => .attribute (pairUp items)) rfl (fun _ => rfl) hpairs h
  · rw [if_neg hpaired] at hfits hbuild
    have hlength : 3 * count ≤ (segment ++ more).length := by
      rw [List.length_append]
      omega
    have hunpaired : asChar kind = '*' ∨ asChar kind = '~' ∨ asChar kind = '>' := by
      rcases isAggregateKind_iff.mp haggregate with hkind | hkind | hkind | hkind | hkind
      · exact .inl hkind
      · exact .inr (.inl hkind)
      · exact .inr (.inr hkind)
      · exact absurd (by simp [isPairedKind, hkind]) hpaired
      · exact absurd (by simp [isPairedKind, hkind]) hpaired
    rcases hunpaired with hkind | hkind | hkind
    · simp only [parseFrameInner, hkind, parseOptionalSequence_eq hline hlength] at h
      exact hbuild (fun items => .array (some items)) rfl (fun _ => rfl) (fun _ _ => id) h
    · simp only [parseFrameInner, hkind, parseSequence_eq hline hlength] at h
      exact hbuild .set rfl (fun _ => rfl) (fun _ _ => id) h
    · simp only [parseFrameInner, hkind, parseSequence_eq hline hlength] at h
      exact hbuild .push rfl (fun _ => rfl) (fun _ _ => id) h

end

/-- A frame that is parsed from a head and what follows it is on lines, if the frames are
that follow it. -/
theorem IsHead.lfFree {parse : Parser Frame} {head segment more rest : Bytes} {children : Nat}
    {f : Frame} (hhead : IsHead head children) (hfits : 3 * children ≤ segment.length)
    (hitems : ∀ items after, readItems parse children (segment ++ more) = .ok (items, after) →
      ∀ c ∈ items, c.LfFree)
    (h : parseFrameInner parse (head ++ (segment ++ more)) = .ok (f, rest)) : f.LfFree := by
  cases hhead with
  | scalar hblob haggregate hlf => exact lfFree_scalar hblob haggregate hlf h
  | nullBlob hblob hlf hlen => exact lfFree_blob hblob h
  | blob hblob hlf hlen =>
      simp only [List.append_assoc, List.cons_append] at h
      exact lfFree_blob hblob h
  | @nullAggregate kind line hblob haggregate hlf hlen =>
      rcases announces_of_parseLen hlf hlen with ⟨-, hkind, hline⟩ | ⟨n, hn, -⟩
      · rw [decide_eq_true_eq] at hkind
        have hnull : parseOptionalSequence parse .array (line ++ crlf ++ (segment ++ more)) = _ :=
          parseOptionalSequence_null hline (segment ++ more)
        simp only [List.append_assoc, List.cons_append, parseFrameInner, hkind] at h hnull
        rw [hnull] at h
        cases h
        exact lfFree_leaf rfl rfl
      · cases hn
  | aggregate hblob haggregate hlf hlen => exact lfFree_aggregate haggregate hlf hlen hfits hitems h

/-- Frames of a stream are parsed whole, and to frames on lines. -/
theorem Frames.parsed {levels count : Nat} {bytes : Bytes} (h : Frames levels count bytes) :
    (∃ heads : List Bytes, bytes = heads.flatten ∧
        (∀ head ∈ heads, ∃ children, IsHead head children) ∧
        Consumes (readItems (parseFrameAt levels) count) heads) ∧
      ∀ more items rest,
        readItems (parseFrameAt levels) count (bytes ++ more) = .ok (items, rest) →
        ∀ f ∈ items, f.LfFree := by
  induction h with
  | nil levels =>
      refine ⟨⟨[], rfl, by simp, consumes_readItems_zero⟩, fun more items rest hitems => ?_⟩
      cases hitems
      simp
  | @cons levels children count head body tail hhead hbody htail ihbody ihtail =>
      have hfits := hbody.length_ge
      rcases ihbody.1 with ⟨heads, rfl, hheads, hbodyHeads⟩
      rcases ihtail.1 with ⟨later, rfl, hlater, htailHeads⟩
      have hfirst := hhead.consumes hheads hbodyHeads hfits
      have hsplit : head ++ heads.flatten = (head :: heads).flatten := by simp
      refine ⟨⟨(head :: heads) ++ later, by simp,
        List.forall_mem_append.mpr ⟨List.forall_mem_cons.mpr ⟨⟨children, hhead⟩, hheads⟩, hlater⟩,
        hfirst.readItems_succ htailHeads⟩, fun more items rest hitems => ?_⟩
      rw [readItems, List.append_assoc] at hitems
      rcases bind_eq_ok_iff.mp hitems with ⟨⟨f, after⟩, hf, hlater⟩
      rcases bind_eq_ok_iff.mp hlater with ⟨⟨fs, last⟩, hfs, heq⟩
      cases heq
      have hafter : after = later.flatten ++ more := by
        rw [hsplit] at hf
        rcases hfirst (later.flatten ++ more) with ⟨g, -, hg⟩ | ⟨error, -, herror⟩
        · exact (Prod.mk.inj (Except.ok.inj (hf.symm.trans hg))).2
        · cases hf.symm.trans herror
      subst hafter
      rw [List.append_assoc] at hf
      exact List.forall_mem_cons.mpr
        ⟨hhead.lfFree hfits (ihbody.2 (later.flatten ++ more)) hf, ihtail.2 more fs _ hfs⟩

/-- A frame that was read and parsed has no line feed in its texts. -/
theorem lfFree_of_readRawFrame {input raw rest : Bytes} {f : Frame}
    (hread : readRawFrame input = .ok (raw, rest)) (hparse : parseFrame raw = .ok f) :
    f.LfFree := by
  rcases readRawFrame_iff.mp hread with ⟨-, hsize, hframes⟩
  unfold parseFrame at hparse
  rw [if_neg (by omega)] at hparse
  rcases bind_eq_ok_iff.mp hparse with ⟨⟨g, after⟩, hg, heq⟩
  dsimp only at heq
  split_ifs at heq
  cases heq
  have hitems : readItems (parseFrameAt maxFrameDepth) 1 (raw ++ []) = .ok ([f], after) := by
    rw [List.append_nil, readItems, hg]
    rfl
  exact hframes.parsed.2 [] [f] after hitems f (List.mem_singleton_self f)

end Resp

end EvilResp
