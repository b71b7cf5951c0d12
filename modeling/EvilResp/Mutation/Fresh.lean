import EvilResp.Library.Fields
import EvilResp.Library.Numeric
import EvilResp.Mutation.Generator
import EvilResp.Resp.Nodes
import EvilResp.Resp.Unique

/-!
# What the generator makes

Every generated frame is small: its nesting, the number of its elements, its payloads and
its lines are bounded, set members and map keys are distinct, and no inline command is in
it.  Without violations it keeps to its protocol, and its numbers are numbers.  The same is
true of the contents of a scalar that is changed in place.

Main results:

- Theorem {lit}`freshItem_not_mem`: the fallback of a set member is no member.
- Theorem {lit}`GeneratorConfig.all_frameAt`: every frame of a generated tree is bounded, and
  without violations it fits the protocol.
- Theorem {lit}`GeneratorConfig.all_mutateScalar_altered`: a scalar that is changed in place
  is bounded as well.
-/

namespace EvilResp

open Library
open EvilResp.Resp
open EvilResp.Resp.Frame (byteOf)

/-- The texts of finite floats are decimal numbers of bounded length. -/
def Externals.DisplaysDecimals (lib : Externals) : Prop :=
  ∀ bits, isFiniteBits bits = true →
    isDecimal (lib.displayF64 bits) = true ∧ (asBytes (lib.displayF64 bits)).length ≤ 400

/-! ## One frame -/

/-- A text on one line of bounded length. -/
structure ShortLine (s : String) : Prop where
  oneLine : OneLine s
  short : (asBytes s).length ≤ 400

instance : DecidablePred ShortLine := fun s =>
  decidable_of_iff (OneLine s ∧ (asBytes s).length ≤ 400)
    ⟨fun h => ⟨h.1, h.2⟩, fun h => ⟨h.oneLine, h.short⟩⟩

/-- What every generated frame is, apart from its children. -/
def Bounded : Frame → Prop
  | .simpleString s => ShortLine s
  | .simpleError s => ShortLine s
  | .integer _ => True
  | .bulkString none => True
  | .bulkString (some bytes) => bytes.length ≤ maxBlobBytes
  | .array none => True
  | .array (some items) => items.length ≤ maxItems
  | .null => True
  | .boolean _ => True
  | .double s => ShortLine s
  | .bigNumber s => ShortLine s
  | .bulkError bytes => bytes.length ≤ maxBlobBytes
  | .verbatimString bytes => bytes.length ≤ maxBlobBytes
  | .map pairs => pairs.length ≤ maxItems ∧ (pairs.map Prod.fst).Nodup
  | .set items => items.length ≤ maxItems ∧ items.Nodup
  | .push items => items.length ≤ maxItems
  | .attribute pairs => pairs.length ≤ maxItems ∧ (pairs.map Prod.fst).Nodup
  | .inline _ => False

/-- What a frame of a protocol is. -/
def InProfile (protocol : Protocol) : Frame → Prop
  | .simpleString _ => True
  | .simpleError _ => True
  | .integer _ => True
  | .bulkString none => protocol = .resp2
  | .bulkString (some _) => True
  | .array none => protocol = .resp2
  | .array (some _) => True
  | .null => protocol = .resp3
  | .boolean _ => protocol = .resp3
  | .double s => protocol = .resp3 ∧ isDouble s = true
  | .bigNumber s => protocol = .resp3 ∧ isBigNumber s = true
  | .bulkError _ => protocol = .resp3
  | .verbatimString bytes => protocol = .resp3 ∧ asBytes "txt:" <+: bytes
  | .map _ => protocol = .resp3
  | .set _ => protocol = .resp3
  | .push _ => False
  | .attribute _ => False
  | .inline _ => False

/-- A tree of bounded frames, which without violations fit the protocol. -/
structure Generated (config : GeneratorConfig) (levels : Nat) (f : Frame) : Prop where
  depth : f.depth ≤ levels
  bounded : f.Everywhere Bounded
  profile : config.violations = false → f.Everywhere (InProfile config.protocol)

/-- A frame is one of the generator if its children are, one level below. -/
theorem generated_of_children {config : GeneratorConfig} {levels : Nat} {f : Frame}
    (hbounded : Bounded f) (hprofile : config.violations = false → InProfile config.protocol f)
    (hchildren : ∀ c ∈ f.children, Generated config levels c) :
    Generated config (levels + 1) f := by
  constructor
  · exact Frame.depth_le_succ fun c hc => (hchildren c hc).depth
  · exact Frame.everywhere_iff.mpr ⟨hbounded, fun c hc => (hchildren c hc).bounded⟩
  · intro hviolations
    exact Frame.everywhere_iff.mpr
      ⟨hprofile hviolations, fun c hc => (hchildren c hc).profile hviolations⟩

/-- A frame without children is one of the generator at any level. -/
theorem generated_leaf {config : GeneratorConfig} {levels : Nat} {f : Frame}
    (hleaf : f.children = []) (hbounded : Bounded f)
    (hprofile : config.violations = false → InProfile config.protocol f) (hlevels : 1 ≤ levels) :
    Generated config levels f := by
  obtain ⟨below, rfl⟩ := Nat.exists_eq_add_of_le' hlevels
  exact generated_of_children hbounded hprofile (by simp [hleaf])

/-- A frame that the parser could have returned, with small lengths. -/
structure Fresh (f : Frame) : Prop where
  typed : f.Typed
  short : f.LengthsLe maxBlobBytes

/-- Bounded frames are fresh. -/
theorem fresh_of_bounded {f : Frame} (h : f.Everywhere Bounded) : Fresh f := by
  induction f using Frame.childInduction with
  | step f ih =>
      have hchildren : ∀ c ∈ f.children, Fresh c := fun c hc => ih c hc (h.of_mem_children hc)
      have hhere := h.here
      have hline : ∀ {s : String}, ShortLine s → NoCrlf (asBytes s) := fun hs =>
        noCrlf_of_not_mem (singleLine_iff_bytes.mp hs.oneLine.singleLine)
      have hmax : maxItems ≤ maxBlobBytes := by decide
      constructor
      · refine Frame.typed_iff.mpr ⟨?_, ?_, fun c hc => (hchildren c hc).typed⟩
        · rintro parts rfl
          exact hhere
        · intro value hvalue
          cases f with
          | simpleString s => exact Option.some.inj hvalue ▸ hline hhere
          | simpleError s => exact Option.some.inj hvalue ▸ hline hhere
          | double s => exact Option.some.inj hvalue ▸ hline hhere
          | bigNumber s => exact Option.some.inj hvalue ▸ hline hhere
          | _ => cases hvalue
      · refine Frame.lengthsLe_iff.mpr ⟨?_, fun c hc => (hchildren c hc).short⟩
        intro n hn
        cases f with
        | bulkString bytes =>
            cases bytes with
            | none =>
                cases hn
                omega
            | some bytes =>
                cases hn
                exact_mod_cast hhere
        | bulkError bytes =>
            cases hn
            exact_mod_cast hhere
        | verbatimString bytes =>
            cases hn
            exact_mod_cast hhere
        | array items =>
            cases items with
            | none =>
                cases hn
                omega
            | some items =>
                cases hn
                exact_mod_cast hhere.trans hmax
        | set items =>
            cases hn
            exact_mod_cast hhere.1.trans hmax
        | push items =>
            cases hn
            exact_mod_cast hhere.trans hmax
        | map pairs =>
            cases hn
            exact_mod_cast hhere.1.trans hmax
        | «attribute» pairs =>
            cases hn
            exact_mod_cast hhere.1.trans hmax
        | _ => cases hn

/-- An integer is fresh. -/
theorem fresh_integer (value : Int64) : Fresh (.integer value) :=
  fresh_of_bounded (Frame.everywhere_iff.mpr ⟨trivial, by simp [Frame.children]⟩)

/-! ## Texts and bytes -/

/-- A printable character that is not the space. -/
def IsPrintable (c : Char) : Prop :=
  0x21 ≤ c.toNat ∧ c.toNat < 0x7f

/-- Random letters are printable, and not too many. -/
theorem all_ascii (max : Nat) : (ascii max).All fun text =>
    (∀ c ∈ text.toList, IsPrintable c) ∧ (asBytes text).length ≤ max := by
  refine Draw.all_bind.mpr (all_genRange (by omega) fun len _ hlen => ?_)
  have hcodes : (genRange 0x21 0x7f).All fun code => 0x21 ≤ code ∧ code < 0x7f :=
    all_genRange (by decide) fun code hlow hhigh => ⟨hlow, hhigh⟩
  refine Draw.all_bind.mpr (Draw.all_mono (Draw.all_replicate hcodes len) fun codes hmem => ?_)
  have hprintable : ∀ c ∈ (String.ofList (codes.map Char.ofNat)).toList, IsPrintable c := by
    intro c hc
    rw [String.toList_ofList] at hc
    rcases List.mem_map.mp hc with ⟨code, hcode, rfl⟩
    rcases hmem.2 code hcode with ⟨hlow, hhigh⟩
    have hvalid : code.isValidChar := .inl (by omega)
    have hsame : (Char.ofNat code).toNat = code := toNat_ofNat hvalid
    exact ⟨by omega, by omega⟩
  refine ⟨hprintable, ?_⟩
  have hlength := length_asBytes_ascii fun c hc => (hprintable c hc).2.trans (by decide)
  rw [hlength, String.length_ofList, List.length_map, hmem.1]
  omega

/-- Printable text is on one line. -/
theorem oneLine_of_printable {s : String} (h : ∀ c ∈ s.toList, IsPrintable c) : OneLine s := by
  constructor
  · intro hcr
    exact absurd (h _ hcr).1 (by decide)
  · intro hlf
    exact absurd (h _ hlf).1 (by decide)

/-- Printable characters make no white space. -/
theorem word_of_printable {s : String} (h : ∀ c ∈ s.toList, IsPrintable c) :
    ∀ b ∈ asBytes s, isAsciiWhitespace b = false := by
  intro b hb
  by_contra hspace
  have hlow : b.toNat < 0x21 := by
    rw [Bool.not_eq_false, isAsciiWhitespace, decide_eq_true_eq] at hspace
    rcases hspace with h | h | h | h | h <;> rw [h] <;> decide
  have hchar : (Char.ofNat b.toNat).toNat = b.toNat := toNat_ofNat (.inl (by omega))
  have hmem : UInt8.ofNat (Char.ofNat b.toNat).toNat ∈ asBytes s := by
    rw [hchar, UInt8.ofNat_toNat]
    exact hb
  rw [mem_asBytes_ascii_iff (by omega)] at hmem
  have hprintable := (h _ hmem).1
  omega

/-! ## Set members and map keys -/

/-- If the fallbacks run out, they were members. -/
theorem mem_of_freshItem_mem {items : List Frame} (fuel : Nat) :
    ∀ {item : Frame} {fallback : Nat}, freshItem items fuel item fallback ∈ items →
      item ∈ items ∧ ∀ i < fuel, Frame.integer (Int64.ofNat (fallback + i)) ∈ items := by
  induction fuel with
  | zero =>
      intro item fallback h
      exact ⟨h, by simp⟩
  | succ fuel ih =>
      intro item fallback h
      unfold freshItem at h
      by_cases hitem : item ∈ items
      · rw [if_pos hitem] at h
        rcases ih h with ⟨hfirst, hrest⟩
        refine ⟨hitem, fun i hi => ?_⟩
        cases i with
        | zero => exact hfirst
        | succ i =>
            have hmem := hrest i (by omega)
            rwa [Nat.add_assoc, Nat.add_comm 1 i] at hmem
      · rw [if_neg hitem] at h
        exact absurd h hitem

/-- There are more fallbacks than members, so one of them is no member. -/
theorem freshItem_not_mem {items : List Frame} (item : Frame) {fallback : Nat}
    (h : fallback + items.length < 2 ^ 63) :
    freshItem items (items.length + 1) item fallback ∉ items := by
  intro hmem
  have hall := (mem_of_freshItem_mem _ hmem).2
  let fallbacks := (List.range (items.length + 1)).map fun i =>
    Frame.integer (Int64.ofNat (fallback + i))
  have hnodup : fallbacks.Nodup := by
    refine List.Nodup.map_on (fun i hi j hj heq => ?_) List.nodup_range
    rw [List.mem_range] at hi hj
    have hvalue := congrArg Int64.toInt (Frame.integer.inj heq)
    rw [Int64.toInt_ofNat_of_lt (by omega), Int64.toInt_ofNat_of_lt (by omega)] at hvalue
    omega
  have hsubset : fallbacks ⊆ items := by
    intro f hf
    rcases List.mem_map.mp hf with ⟨i, hi, rfl⟩
    exact hall i (List.mem_range.mp hi)
  have hlength := (List.subperm_of_subset hnodup hsubset).length_le
  rw [List.length_map, List.length_range] at hlength
  omega

/-- The key of a pair. -/
def keyOf (index : Nat) : Frame :=
  .bulkString (some (asBytes ("key:" ++ toString index)))

/-- Different numbers make different keys. -/
theorem keyOf_injective : Function.Injective keyOf := by
  intro i j h
  have htext := asBytes_injective (Option.some.inj (Frame.bulkString.inj h))
  have hchars := congrArg String.toList htext
  rw [String.toList_append, String.toList_append, List.append_cancel_left_eq] at hchars
  exact repr_injective (String.toList_injective hchars)

namespace GeneratorConfig

variable {lib : Externals} (config : GeneratorConfig)

/-- A rule is broken only if that is allowed. -/
theorem all_violate :
    config.violate.All fun violate => violate = true → config.violations = true := by
  unfold violate
  by_cases h : config.violations = true
  · rw [if_pos h]
    exact (safe_genRatio (by decide)).all fun _ _ => h
  · rw [if_neg h, Draw.pure_eq, Draw.all_done]
    intro hfalse
    cases hfalse

/-- What is drawn without a violation holds without violations. -/
theorem all_unless_violated {α : Type} {P : α → Prop} {Q : α → Prop} {violated regular : Draw α}
    (hviolated : violated.All P) (hregular : regular.All fun a => P a ∧ Q a) :
    (do if ← config.violate then violated else regular : Draw α).All fun a =>
      P a ∧ (config.violations = false → Q a) := by
  refine Draw.all_bind.mpr (Draw.all_mono (all_violate config) fun violate hviolate => ?_)
  cases violate with
  | true =>
      rw [if_pos rfl]
      refine Draw.all_mono hviolated fun a ha => ⟨ha, fun hnone => ?_⟩
      rw [hviolate rfl] at hnone
      cases hnone
  | false =>
      rw [if_neg (by decide)]
      exact Draw.all_mono hregular fun a ha => ⟨ha.1, fun _ => ha.2⟩

/-! ## Scalars -/

/-- A line of the generator is short. -/
theorem all_text : config.text.All fun text => OneLine text ∧ (asBytes text).length ≤ 24 := by
  refine Draw.all_bind.mpr ((safe_boundary config).all fun boundary => ?_)
  split
  · exact Draw.all_pick.mpr ⟨by simp [texts], by decide⟩
  · exact Draw.all_mono (all_ascii 24) fun text h => ⟨oneLine_of_printable h.1, h.2⟩

/-- So it is a short line. -/
theorem shortLine_of_text {text : String} (h : OneLine text ∧ (asBytes text).length ≤ 24) :
    ShortLine text :=
  ⟨h.1, h.2.trans (by decide)⟩

/-- A double of the generator is short, and well formed if rules are kept. -/
theorem all_double (hlib : lib.DisplaysDecimals) (overflow : Bool) :
    (config.double lib overflow).All fun s =>
      ShortLine s ∧ (config.violations = false → isDouble s = true) := by
  have hcorpus : (Draw.pick doubles).All fun s => ShortLine s ∧ isDouble s = true :=
    Draw.all_pick.mpr ⟨by simp [doubles], by decide⟩
  refine all_unless_violated config (Draw.all_pick.mpr ⟨by simp, by decide⟩) ?_
  split
  · exact hcorpus
  refine Draw.all_bind.mpr ((safe_boundary config).all fun boundary => ?_)
  split
  · exact hcorpus
  · refine Draw.all_bind.mpr (all_genBits fun bits _ => ?_)
    rw [Draw.pure_eq, Draw.all_done]
    by_cases hfinite : isFiniteBits bits = true
    · rcases hlib bits hfinite with ⟨hdecimal, hlength⟩
      have hdouble := isDouble_of_isDecimal hdecimal
      rw [if_pos hfinite]
      exact ⟨⟨oneLine_of_isDouble hdouble, hlength⟩, hdouble⟩
    · rw [if_neg hfinite]
      decide

/-- So is a big number. -/
theorem all_bigNumber (overflow : Bool) :
    (config.bigNumber overflow).All fun s =>
      ShortLine s ∧ (config.violations = false → isBigNumber s = true) := by
  have hcorpus : (Draw.pick bigNumbers).All fun s => ShortLine s ∧ isBigNumber s = true :=
    Draw.all_pick.mpr ⟨by simp [bigNumbers], by decide⟩
  refine all_unless_violated config (Draw.all_pick.mpr ⟨by simp, by decide⟩) ?_
  split
  · exact hcorpus
  refine Draw.all_bind.mpr ((safe_boundary config).all fun boundary => ?_)
  split
  · exact hcorpus
  · have hsigned : ∀ sign : String, (asBytes sign).length ≤ 1 →
        (∀ n : Nat, isBigNumber (sign ++ n.repr) = true) →
        (do let magnitude ← genBits 128; return sign ++ toString magnitude : Draw String).All
          fun s => ShortLine s ∧ isBigNumber s = true := by
      intro sign hsign hnumber
      refine Draw.all_bind.mpr (all_genBits fun magnitude hmagnitude => ?_)
      have hdigits : (asBytes magnitude.repr).length ≤ 39 :=
        length_asBytes_repr_le (by decide) (hmagnitude.trans_le (by decide))
      refine ⟨⟨oneLine_of_isBigNumber (hnumber magnitude), ?_⟩, hnumber magnitude⟩
      show (asBytes (sign ++ magnitude.repr)).length ≤ 400
      rw [asBytes_append, List.length_append]
      omega
    refine Draw.all_bind.mpr (all_genBool.mpr ⟨?_, ?_⟩)
    · refine hsigned "" (by decide) fun n => ?_
      rw [String.empty_append]
      exact (isBigNumber_signed n).1
    · exact hsigned "-" (by decide) fun n => (isBigNumber_signed n).2

/-- A blob of the generator is not too large. -/
theorem all_blob : config.blob.All fun bytes => bytes.length ≤ maxBlobBytes := by
  refine Draw.all_bind.mpr ((safe_boundary config).all fun boundary => ?_)
  split
  · refine Draw.all_bind.mpr (all_genRange (by decide) fun len _ hlen => ?_)
    have hbyte : (genBits 8).Safe := all_genBits fun _ _ => trivial
    have hbytes := Draw.all_replicate hbyte len
    refine Draw.all_bind.mpr (Draw.all_mono hbytes fun bytes hlength => ?_)
    have hmax : 257 ≤ maxBlobBytes := by decide
    have hcount : (bytes.map UInt8.ofNat).length = len := by rw [List.length_map, hlength.1]
    rw [Draw.pure_eq, Draw.all_done, hcount]
    omega
  · refine Draw.all_bind.mpr ((safe_genRatio (by decide)).all fun number => ?_)
    split
    · have hnumbers : ∀ number ∈ bigNumbers, (asBytes number).length ≤ maxBlobBytes := by decide
      exact Draw.all_bind.mpr (Draw.all_pick.mpr ⟨by simp [bigNumbers], hnumbers⟩)
    · refine Draw.all_bind.mpr (Draw.all_pick.mpr ⟨by simp [sizes], fun len hlen => ?_⟩)
      refine Draw.all_bind.mpr (Draw.all_pick.mpr ⟨by simp [patterns], fun pattern _ => ?_⟩)
      have hsizes : ∀ len ∈ sizes, len ≤ maxBlobBytes := by decide
      have hcount : ((List.range len).map fun i => pattern.getD (i % pattern.length) 0).length =
          len := by simp
      rw [Draw.pure_eq, Draw.all_done, hcount]
      exact hsizes len hlen

/-- Nor is an error text. -/
theorem all_bulkError : config.bulkError.All fun bytes => bytes.length ≤ maxBlobBytes :=
  Draw.all_bind.mpr ((safe_blob config).all fun _ => List.length_take_le _ _)

/-- Nor is a verbatim blob, which has a format if rules are kept. -/
theorem all_verbatim : config.verbatim.All fun bytes =>
    bytes.length ≤ maxBlobBytes ∧ (config.violations = false → asBytes "txt:" <+: bytes) := by
  have hbad : (asBytes "bad").length ≤ maxBlobBytes := by decide
  refine all_unless_violated config hbad ?_
  refine Draw.all_bind.mpr ((safe_blob config).all fun bytes => ?_)
  have hfront : (asBytes "txt:").length ≤ maxBlobBytes := by decide
  refine ⟨List.length_take_le _ _, ?_⟩
  rw [List.take_append, List.take_of_length_le hfront]
  exact List.prefix_append _ _

/-- A collection has not too many items. -/
theorem all_count : config.count.All fun count => count ≤ maxItems := by
  refine Draw.all_bind.mpr ((safe_boundary config).all fun boundary => ?_)
  split
  · exact Draw.all_pick.mpr ⟨by simp, by decide⟩
  · exact all_genRange (by decide) fun count _ hcount => Nat.le_of_lt_succ hcount

/-! ## Aggregates -/

/-- New members are distinct. -/
theorem all_buildSet {P : Frame → Prop} (hinteger : ∀ value, P (.integer value))
    {child : Draw Frame} (hchild : child.All P) (count : Nat) :
    ∀ index items, index + items.length + 2 * count < 2 ^ 62 → items.Nodup →
      (∀ item ∈ items, P item) → (buildSet child count index items).All fun result =>
        result.length = items.length + count ∧ result.Nodup ∧ ∀ item ∈ result, P item := by
  have hfresh : ∀ items fuel item fallback, P item → P (freshItem items fuel item fallback) := by
    intro items fuel
    induction fuel with
    | zero => exact fun _ _ h => h
    | succ fuel ih =>
        intro item fallback h
        unfold freshItem
        split
        · exact ih _ _ (hinteger _)
        · exact h
  induction count with
  | zero =>
      intro index items _ hnodup hitems
      exact ⟨rfl, hnodup, hitems⟩
  | succ count ih =>
      intro index items hsmall hnodup hitems
      refine Draw.all_bind.mpr (Draw.all_mono hchild fun item hitem => ?_)
      have hnew : freshItem items (items.length + 1) item index ∉ items :=
        freshItem_not_mem item (by omega)
      have hmore : (items ++ [freshItem items (items.length + 1) item index]).Nodup :=
        List.nodup_append.mpr ⟨hnodup, List.nodup_singleton _, fun a ha b hb => by
          rintro rfl
          rw [List.mem_singleton.mp hb] at ha
          exact hnew ha⟩
      have hmembers : ∀ member ∈ items ++ [freshItem items (items.length + 1) item index],
          P member := by
        intro member hmember
        rcases List.mem_append.mp hmember with hmember | hmember
        · exact hitems member hmember
        · rw [List.mem_singleton.mp hmember]
          exact hfresh _ _ _ _ hitem
      have hlength : (items ++ [freshItem items (items.length + 1) item index]).length =
          items.length + 1 := by simp
      refine Draw.all_mono (ih _ _ (by omega) hmore hmembers) fun result hresult => ?_
      exact ⟨by omega, hresult.2⟩

/-- Keys are numbered. -/
theorem all_buildMap {P : Frame → Prop} {child : Draw Frame} (hchild : child.All P)
    (count : Nat) :
    ∀ index, (buildMap child count index).All fun pairs =>
      pairs.map Prod.fst = (List.range' index count).map keyOf ∧ ∀ pair ∈ pairs, P pair.2 := by
  induction count with
  | zero =>
      intro index
      exact ⟨rfl, by simp⟩
  | succ count ih =>
      intro index
      refine Draw.all_bind.mpr (Draw.all_mono hchild fun value hvalue => ?_)
      refine Draw.all_bind.mpr (Draw.all_mono (ih (index + 1)) fun pairs hpairs => ?_)
      refine ⟨?_, List.forall_mem_cons.mpr ⟨hvalue, hpairs.2⟩⟩
      rw [List.map_cons, List.range'_succ, List.map_cons, hpairs.1]
      rfl

/-! ## Frames -/

variable {config}

/-- The protocols of the kinds that only one of them has. -/
theorem protocol_of_mem_kinds {kind : Kind} (h : kind ∈ config.kinds) :
    (kind ∈ [.nullBlob, .nullArray] → config.protocol = .resp2) ∧
      (kind ∈ [.null, .boolean, .double, .bigNumber, .bulkError, .verbatim, .map, .set] →
        config.protocol = .resp3) := by
  unfold kinds at h
  cases hprotocol : config.protocol with
  | resp2 =>
      rw [hprotocol] at h
      refine ⟨fun _ => rfl, fun hkind => ?_⟩
      revert kind
      decide
  | resp3 =>
      rw [hprotocol] at h
      refine ⟨fun hkind => ?_, fun _ => rfl⟩
      revert kind
      decide

/-- Everything an integer has to be. -/
theorem generated_integer {levels : Nat} (hlevels : 1 ≤ levels) (value : Int64) :
    Generated config levels (.integer value) :=
  generated_leaf rfl trivial (fun _ => trivial) hlevels

variable (config)

/-- A malformed frame is one of the generator, if rules may be broken. -/
theorem all_violation {levels : Nat} {sideband : Bool} (hviolations : config.violations = true)
    (hlevels : sideband = true → 1 ≤ levels) :
    (config.violation sideband).All (Generated config (levels + 1)) := by
  have hleaf : ∀ f : Frame, f.children = [] → Bounded f → Generated config (levels + 1) f := by
    intro f hleaf hbounded
    refine generated_leaf hleaf hbounded (fun hnone => ?_) (by omega)
    rw [hviolations] at hnone
    cases hnone
  have hinner : ∀ f : Frame, 1 ≤ levels → f.children = [] → Bounded f →
      Generated config levels f := by
    intro f hlevels hleaf hbounded
    refine generated_leaf hleaf hbounded (fun hnone => ?_) hlevels
    rw [hviolations] at hnone
    cases hnone
  have houter : ∀ f : Frame, Bounded f → (∀ c ∈ f.children, Generated config levels c) →
      Generated config (levels + 1) f := by
    intro f hbounded hchildren
    refine generated_of_children hbounded (fun hnone => ?_) hchildren
    rw [hviolations] at hnone
    cases hnone
  have hkinds : 0 < (if sideband then 5 else 3) + if config.protocol = .resp2 then 1 else 0 := by
    cases sideband with
    | false => exact Nat.add_pos_left (by decide) _
    | true => exact Nat.add_pos_left (by decide) _
  refine Draw.all_bind.mpr (all_genRange hkinds fun choice _ _ => ?_)
  rw [Draw.pure_eq, Draw.all_done]
  split
  · exact hleaf _ rfl (show ShortLine "1e" by decide)
  · exact hleaf _ rfl (show ShortLine "12x" by decide)
  · exact hleaf _ rfl (show (asBytes "bad").length ≤ maxBlobBytes by decide)
  · refine houter _ (show 1 ≤ maxItems by decide) fun c hc => ?_
    rw [List.mem_singleton.mp hc]
    exact hinner _ (hlevels rfl) rfl (show (asBytes "message").length ≤ maxBlobBytes by decide)
  · refine houter _ ⟨show 1 ≤ maxItems by decide, List.nodup_singleton _⟩ fun c hc => ?_
    rcases List.mem_pair.mp hc with rfl | rfl
    · exact hinner _ (hlevels rfl) rfl (show ShortLine "meta" by decide)
    · exact generated_integer (hlevels rfl) 1
  · exact hleaf _ rfl trivial

/-- Keys are short blobs. -/
theorem generated_key {levels index : Nat} (hlevels : 1 ≤ levels) (h : index < maxItems) :
    Generated config levels (keyOf index) := by
  have hshort : ∀ index < maxItems,
      (asBytes ("key:" ++ toString index)).length ≤ maxBlobBytes := by decide
  exact generated_leaf rfl (hshort index h) (fun _ => trivial) hlevels

/-- A map of generated values is one of the generator. -/
theorem all_mapFrame {levels : Nat} {child : Draw Frame} (hlevels : 1 ≤ levels)
    (hresp3 : config.protocol = .resp3) (hchild : child.All (Generated config levels)) :
    (config.build lib child .map).All (Generated config (levels + 1)) := by
  refine Draw.all_bind.mpr (Draw.all_mono (all_count config) fun count hcount => ?_)
  have hpairs := all_buildMap hchild count 0
  refine Draw.all_map.mpr (Draw.all_mono hpairs fun pairs hmembers => ?_)
  rcases hmembers with ⟨hkeys, hvalues⟩
  have hlength : pairs.length = count := by
    simpa using congrArg List.length hkeys
  have hnodup : (pairs.map Prod.fst).Nodup := by
    rw [hkeys]
    exact List.Nodup.map keyOf_injective (List.nodup_range')
  refine generated_of_children ⟨hlength ▸ hcount, hnodup⟩ (fun _ => hresp3) ?_
  refine Frame.forall_mem_pairs fun pair hpair => ⟨?_, hvalues pair hpair⟩
  have hkey : pair.1 ∈ (List.range' 0 count).map keyOf := hkeys ▸ List.mem_map_of_mem hpair
  rcases List.mem_map.mp hkey with ⟨index, hindex, heq⟩
  rw [← heq]
  exact generated_key config hlevels (by simp at hindex; omega)

/-- A set of generated members is one of the generator. -/
theorem all_setFrame {levels : Nat} {child : Draw Frame} (hlevels : 1 ≤ levels)
    (hresp3 : config.protocol = .resp3) (hchild : child.All (Generated config levels)) :
    (config.build lib child .set).All (Generated config (levels + 1)) := by
  refine Draw.all_bind.mpr (Draw.all_mono (all_count config) fun count hcount => ?_)
  have hmax : maxItems = 4 := rfl
  have hitems := all_buildSet (generated_integer hlevels) hchild count 0 []
    (by simp; omega) List.nodup_nil (by simp)
  refine Draw.all_map.mpr (Draw.all_mono hitems fun items hmembers => ?_)
  rcases hmembers with ⟨hlength, hnodup, hmembers⟩
  have hfew : items.length ≤ maxItems := by
    rw [List.length_nil] at hlength
    omega
  exact generated_of_children ⟨hfew, hnodup⟩ (fun _ => hresp3) hmembers

/-- Every kind is built within the bounds, if its children are. -/
theorem all_build (hlib : lib.DisplaysDecimals) {levels : Nat} {child : Draw Frame} {kind : Kind}
    (hkind : kind ∈ config.kinds)
    (hchild : hasChildren kind = true → 1 ≤ levels ∧ child.All (Generated config levels)) :
    (config.build lib child kind).All (Generated config (levels + 1)) := by
  have hleaf : ∀ f : Frame, f.children = [] → Bounded f →
      (config.violations = false → InProfile config.protocol f) →
      Generated config (levels + 1) f := fun f hleaf hbounded hprofile =>
    generated_leaf hleaf hbounded hprofile (by omega)
  rcases protocol_of_mem_kinds hkind with ⟨hresp2, hresp3⟩
  cases kind with
  | string =>
      refine Draw.all_map.mpr (Draw.all_mono (all_text config) fun text htext => ?_)
      exact hleaf _ rfl (shortLine_of_text htext) fun _ => trivial
  | error =>
      refine Draw.all_map.mpr (Draw.all_mono (all_text config) fun text htext => ?_)
      have hfront : (asBytes "ERR ").length = 4 := by decide
      refine hleaf _ rfl ⟨oneLine_append.mpr ⟨by decide, htext.1⟩, ?_⟩ fun _ => trivial
      rw [asBytes_append, List.length_append]
      omega
  | integer =>
      exact Draw.all_map.mpr ((safe_integer config).all fun value =>
        generated_integer (by omega) value)
  | blob =>
      refine Draw.all_map.mpr (Draw.all_mono (all_blob config) fun bytes hbytes => ?_)
      exact hleaf _ rfl hbytes fun _ => trivial
  | nullBlob => exact hleaf _ rfl trivial fun _ => hresp2 (by decide)
  | nullArray => exact hleaf _ rfl trivial fun _ => hresp2 (by decide)
  | null => exact hleaf _ rfl trivial fun _ => hresp3 (by decide)
  | boolean =>
      have hvalue : ∀ value, Generated config (levels + 1) (.boolean value) := fun value =>
        hleaf _ rfl trivial fun _ => hresp3 (by decide)
      exact Draw.all_map.mpr (all_genBool.mpr ⟨hvalue _, hvalue _⟩)
  | double =>
      refine Draw.all_map.mpr (Draw.all_mono (all_double config hlib false) fun s hs => ?_)
      exact hleaf _ rfl hs.1 fun hnone => ⟨hresp3 (by decide), hs.2 hnone⟩
  | bigNumber =>
      refine Draw.all_map.mpr (Draw.all_mono (all_bigNumber config false) fun s hs => ?_)
      exact hleaf _ rfl hs.1 fun hnone => ⟨hresp3 (by decide), hs.2 hnone⟩
  | bulkError =>
      refine Draw.all_map.mpr (Draw.all_mono (all_bulkError config) fun bytes hbytes => ?_)
      exact hleaf _ rfl hbytes fun _ => hresp3 (by decide)
  | verbatim =>
      refine Draw.all_map.mpr (Draw.all_mono (all_verbatim config) fun bytes hbytes => ?_)
      exact hleaf _ rfl hbytes.1 fun hnone => ⟨hresp3 (by decide), hbytes.2 hnone⟩
  | array =>
      rcases hchild rfl with ⟨-, hchild⟩
      refine Draw.all_bind.mpr (Draw.all_mono (all_count config) fun count hcount => ?_)
      have hitems := Draw.all_replicate hchild count
      refine Draw.all_map.mpr (Draw.all_mono hitems fun items hmembers => ?_)
      have hlength : items.length ≤ maxItems := hmembers.1 ▸ hcount
      exact generated_of_children hlength (fun _ => trivial) hmembers.2
  | map =>
      rcases hchild rfl with ⟨hlevels, hchild⟩
      exact all_mapFrame config hlevels (hresp3 (by decide)) hchild
  | set =>
      rcases hchild rfl with ⟨hlevels, hchild⟩
      exact all_setFrame config hlevels (hresp3 (by decide)) hchild

/-- A frame is one of the generator, if its items are. -/
theorem all_frameOf (hlib : lib.DisplaysDecimals) {levels : Nat} {sideband : Bool}
    {child : Draw Frame}
    (hchild : sideband = true → 1 ≤ levels ∧ child.All (Generated config levels)) :
    (config.frameOf lib sideband child).All (Generated config (levels + 1)) := by
  refine Draw.all_bind.mpr (Draw.all_mono (all_violate config) fun violate hviolate => ?_)
  cases violate with
  | true =>
      rw [if_pos rfl]
      exact all_violation config (hviolate rfl) fun h => (hchild h).1
  | false =>
      rw [if_neg (by decide)]
      refine Draw.all_bind.mpr (Draw.all_pick.mpr ⟨?_, ?_⟩)
      · unfold kinds
        cases config.protocol <;> cases sideband <;> simp
      · intro kind hkind
        refine all_build config hlib (List.mem_of_mem_take hkind) fun hchildren => ?_
        apply hchild
        by_contra hlast
        rw [if_neg hlast] at hkind
        rw [leaf_of_mem_kinds config kind hkind] at hchildren
        cases hchildren

/-- Every frame of a generated tree is bounded and fits the protocol. -/
theorem all_frameAt (hlib : lib.DisplaysDecimals) (levels : Nat) :
    (config.frameAt lib levels).All (Generated config (levels + 1)) := by
  induction levels with
  | zero => exact all_frameOf config hlib (by simp)
  | succ levels ih => exact all_frameOf config hlib fun _ => ⟨by omega, ih⟩

/-! ## Changes in place -/

/-- What a scalar can be changed to in its place. -/
inductive Altered (config : GeneratorConfig) : Frame → Frame → Prop where
  | integer {m n : Int64} : Altered config (.integer m) (.integer n)
  | simpleString {s t : String} (h : ShortLine t) :
      Altered config (.simpleString s) (.simpleString t)
  | simpleError {s t : String} (h : ShortLine t) :
      Altered config (.simpleError s) (.simpleError t)
  | double {s t : String} (h : ShortLine t)
      (hnumber : config.violations = false → isDouble t = true) :
      Altered config (.double s) (.double t)
  | bigNumber {s t : String} (h : ShortLine t)
      (hnumber : config.violations = false → isBigNumber t = true) :
      Altered config (.bigNumber s) (.bigNumber t)
  | bulkString {a b : Bytes} (h : b.length ≤ maxBlobBytes) :
      Altered config (.bulkString (some a)) (.bulkString (some b))
  | bulkError {a b : Bytes} (h : b.length ≤ maxBlobBytes) :
      Altered config (.bulkError a) (.bulkError b)
  | verbatimString {a b : Bytes} (h : b.length ≤ maxBlobBytes)
      (hfront : config.violations = false → asBytes "txt:" <+: b) :
      Altered config (.verbatimString a) (.verbatimString b)

variable {config}

/-- Only frames without children are altered. -/
theorem Altered.leaf {f g : Frame} (h : Altered config f g) : f.children = [] ∧ g.children = [] := by
  cases h <;> exact ⟨rfl, rfl⟩

/-- What a frame is altered to is bounded. -/
theorem Altered.bounded {f g : Frame} (h : Altered config f g) : Bounded g := by
  cases h with
  | integer => trivial
  | simpleString h => exact h
  | simpleError h => exact h
  | double h _ => exact h
  | bigNumber h _ => exact h
  | bulkString h => exact h
  | bulkError h => exact h
  | verbatimString h _ => exact h

/-- So it is fresh. -/
theorem Altered.fresh {f g : Frame} (h : Altered config f g) : Fresh g := by
  refine fresh_of_bounded (Frame.everywhere_iff.mpr ⟨h.bounded, ?_⟩)
  simp [h.leaf.2]

variable (config)

/-- An extreme number is short. -/
theorem all_overflowText (current : Bytes) :
    (overflowText current).All fun text => OneLine text ∧ (asBytes text).length ≤ 20 := by
  have hall : ∀ chosen other : String, (OneLine chosen ∧ (asBytes chosen).length ≤ 20) →
      (OneLine other ∧ (asBytes other).length ≤ 20) →
      OneLine (if asBytes chosen = current then other else chosen) ∧
        (asBytes (if asBytes chosen = current then other else chosen)).length ≤ 20 := by
    intro chosen other hchosen hother
    split
    · exact hother
    · exact hchosen
  refine Draw.all_bind.mpr (all_genBool.mpr ⟨?_, ?_⟩)
  · exact hall _ _ (by decide) (by decide)
  · exact hall _ _ (by decide) (by decide)

/-- A different line is short. -/
theorem all_differentText_shortLine (overflow : Bool) (value : String) :
    (config.differentText overflow value).All ShortLine := by
  have hnext : (config.proposeText overflow value).All fun text =>
      OneLine text ∧ (asBytes text).length ≤ 24 := by
    unfold proposeText
    split
    · exact Draw.all_mono (all_overflowText _) fun _ h => ⟨h.1, h.2.trans (by decide)⟩
    · exact all_text config
  refine Draw.all_bind.mpr (Draw.all_mono hnext fun next hline => ?_)
  rw [Draw.pure_eq, Draw.all_done]
  split
  · have hmark : (asBytes "!").length = 1 := by decide
    refine ⟨oneLine_append.mpr ⟨hline.1, by decide⟩, ?_⟩
    rw [asBytes_append, List.length_append]
    omega
  · exact shortLine_of_text hline

/-- A different number is the proposal, zero or one. -/
theorem differentNumber_of {P : String → Prop} {next : String} (hnext : P next) (hzero : P "0")
    (hone : P "1") (current : String) : P (differentNumber next current) := by
  unfold differentNumber
  split_ifs
  · exact hnext
  · exact hone
  · exact hzero

/-- Different bytes are hardly longer than the proposal. -/
theorem makeDifferent_length (next current : Bytes) (front : Nat) :
    (makeDifferent next current front).length ≤ max next.length (front + 1) := by
  unfold makeDifferent
  split_ifs with hnext hshort
  · exact le_max_left _ _
  · rw [List.length_append, List.length_singleton]
    omega
  · rw [List.length_modify]
    exact le_max_left _ _

/-- The fixed front stays. -/
theorem prefix_makeDifferent {front next : Bytes} (h : front <+: next) (current : Bytes) :
    front <+: makeDifferent next current front.length := by
  unfold makeDifferent
  split_ifs
  · exact h
  · exact h.trans (List.prefix_append _ _)
  · rcases h with ⟨rest, rfl⟩
    rw [List.modify_eq_take_drop, List.take_left]
    exact List.prefix_append _ _

/-- Proposed bytes are not too many, and keep what is true of both sources. -/
theorem all_proposeBytes (front : String) {blob : Draw Bytes}
    {P : Bytes → Prop} (hblob : blob.All fun bytes => bytes.length ≤ maxBlobBytes ∧ P bytes)
    (overflow : Bool) (current : Bytes) (hfront : (asBytes front).length ≤ 4)
    (hP : ∀ text, P (asBytes (front ++ text))) :
    (proposeBytes overflow front current blob).All fun bytes =>
      bytes.length ≤ maxBlobBytes ∧ P bytes := by
  unfold proposeBytes
  split
  · refine Draw.all_map.mpr (Draw.all_mono (all_overflowText current) fun text htext => ?_)
    have hmax : 24 ≤ maxBlobBytes := by decide
    refine ⟨?_, hP text⟩
    rw [asBytes_append, List.length_append]
    omega
  · exact hblob

/-- A scalar that is changed in place is bounded. -/
theorem all_mutateScalar_altered (hlib : lib.DisplaysDecimals) (overflow : Bool) {f : Frame}
    (h : isScalar f = true) : (config.mutateScalar lib overflow f).All (Altered config f) := by
  have hmax : ∀ {n front : Nat}, n ≤ maxBlobBytes → front ≤ 4 →
      max n (front + 1) ≤ maxBlobBytes := by
    intro n front hn hfront
    have hfour : 5 ≤ maxBlobBytes := by decide
    omega
  have hplain : ∀ {blob : Draw Bytes}, (blob.All fun bytes => bytes.length ≤ maxBlobBytes) →
      ∀ current, (proposeBytes overflow "" current blob).All fun next =>
        (makeDifferent next current 0).length ≤ maxBlobBytes := by
    intro blob hblob current
    have hbytes := all_proposeBytes (P := fun _ => True) ""
      (Draw.all_mono hblob fun _ hlength => ⟨hlength, trivial⟩) overflow current
      (by decide) fun _ => trivial
    exact Draw.all_mono hbytes fun next hnext =>
      (makeDifferent_length next current 0).trans (hmax hnext.1 (by decide))
  cases f with
  | integer value =>
      rw [mutateScalar, Draw.all_map]
      exact Draw.all_mono (all_differentInteger config overflow value) fun _ _ => .integer
  | simpleString value =>
      rw [mutateScalar, Draw.all_map]
      exact Draw.all_mono (all_differentText_shortLine config overflow value) fun _ hline =>
        .simpleString hline
  | simpleError value =>
      rw [mutateScalar, Draw.all_map]
      exact Draw.all_mono (all_differentText_shortLine config overflow value) fun _ hline =>
        .simpleError hline
  | double value =>
      rw [mutateScalar, Draw.all_bind]
      refine Draw.all_mono (all_double config hlib overflow) fun next hnext => ?_
      refine .double (differentNumber_of hnext.1 (by decide) (by decide) value) fun hnone => ?_
      exact differentNumber_of (P := fun s => isDouble s = true) (hnext.2 hnone) (by decide)
        (by decide) value
  | bigNumber value =>
      rw [mutateScalar, Draw.all_bind]
      refine Draw.all_mono (all_bigNumber config overflow) fun next hnext => ?_
      refine .bigNumber (differentNumber_of hnext.1 (by decide) (by decide) value) fun hnone => ?_
      exact differentNumber_of (P := fun s => isBigNumber s = true) (hnext.2 hnone) (by decide)
        (by decide) value
  | bulkString bytes =>
      cases bytes with
      | none => cases h
      | some bytes =>
          rw [mutateScalar, Draw.all_bind]
          exact Draw.all_mono (hplain (all_blob config) bytes) fun _ hlength => .bulkString hlength
  | bulkError bytes =>
      rw [mutateScalar, Draw.all_bind]
      exact Draw.all_mono (hplain (all_bulkError config) bytes) fun _ hlength => .bulkError hlength
  | verbatimString bytes =>
      rw [mutateScalar, Draw.all_bind]
      have hfront : (asBytes "txt:").length = 4 := by decide
      have hbytes := all_proposeBytes "txt:" (all_verbatim config) overflow
        (bytes.drop 4) (by decide) fun text _ => by
          rw [asBytes_append]
          exact List.prefix_append _ _
      refine Draw.all_mono hbytes fun next hnext => ?_
      refine .verbatimString ((makeDifferent_length next bytes 4).trans (hmax hnext.1 le_rfl)) ?_
      intro hnone
      have hkept := prefix_makeDifferent (hnext.2 hnone) bytes
      rwa [hfront] at hkept
  | _ => cases h

/-- The arguments of a new inline command are at least two, without white space. -/
theorem all_mutateScalar_inline (overflow : Bool) (parts : List Bytes) :
    (config.mutateScalar lib overflow (.inline parts)).All fun g => ∃ next, g = .inline next ∧
      2 ≤ next.length ∧ ∀ part ∈ next, ∀ b ∈ part, isAsciiWhitespace b = false := by
  rw [mutateScalar, Draw.all_bind]
  refine Draw.all_mono (all_ascii 8) fun first hfirst => ?_
  rw [Draw.all_bind]
  refine Draw.all_mono (all_ascii 8) fun second hsecond => ?_
  have hwords : ∀ part ∈ [asBytes first, asBytes second], ∀ b ∈ part,
      isAsciiWhitespace b = false := by
    intro part hpart
    rcases List.mem_pair.mp hpart with rfl | rfl
    · exact word_of_printable hfirst.1
    · exact word_of_printable hsecond.1
  refine ⟨_, rfl, ?_, ?_⟩
  · split
    · simp
    · simp
  · split
    · intro part hpart
      rcases List.mem_append.mp hpart with hpart | hpart
      · exact hwords part hpart
      · rw [List.mem_singleton.mp hpart]
        exact forall_mem_of_all (by decide)
    · exact hwords

end GeneratorConfig

end EvilResp
