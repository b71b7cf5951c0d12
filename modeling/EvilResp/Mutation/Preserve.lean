import EvilResp.Mutation.Fresh
import EvilResp.Mutation.Mutate
import EvilResp.Resp.Reparse

/-!
# Mutations that preserve the shape

Under the strategy that preserves, a mutated reply is a tree of the same shape: every
position holds a frame of the same kind with as many children, nulls stay, and only
scalars have other contents.  Without a length fault the reply is that tree, and it can
be parsed again.

Main results:

- Theorem {lit}`all_mutateOne_kept`: one frame that is changed keeps its kind.
- Theorem {lit}`preserves_walkRule`: a walk keeps the shape of the tree.
- Theorem {lit}`mutate_preserve`: a mutated reply encodes a tree of the same shape.
-/

namespace EvilResp

open Library
open EvilResp.Resp

/-! ## One position -/

/-- What stands at the position of a frame afterwards: the frame itself with as many
children, a scalar of the same kind, or outside overflow the other boolean. -/
inductive Kept (config : EvilConfig) : Frame → Frame → Prop where
  | shell {f g : Frame} (h : Frame.SameShell f g) : Kept config f g
  | altered {f g : Frame} (h : GeneratorConfig.Altered config.generator f g) : Kept config f g
  | boolean {value : Bool} (hmode : config.mode = .mutate) :
      Kept config (.boolean value) (.boolean (!value))

variable {lib : Externals} {config : EvilConfig}

/-- What a scalar can become without violations: a text on one line, a number that is one,
a bounded payload. -/
def Sound : Frame → Prop
  | .simpleString s => OneLine s
  | .simpleError s => OneLine s
  | .integer _ => True
  | .boolean _ => True
  | .bulkString (some bytes) => bytes.length ≤ maxBlobBytes
  | .double s => OneLine s ∧ isDouble s = true
  | .bigNumber s => OneLine s ∧ isBigNumber s = true
  | .bulkError bytes => bytes.length ≤ maxBlobBytes
  | .verbatimString bytes => bytes.length ≤ maxBlobBytes ∧ asBytes "txt:" <+: bytes
  | _ => False

theorem GeneratorConfig.Altered.sound {generator : GeneratorConfig} {f g : Frame}
    (h : Altered generator f g) (hviolations : generator.violations = false) : Sound g := by
  cases h with
  | integer => trivial
  | simpleString h => exact h.oneLine
  | simpleError h => exact h.oneLine
  | double h hnumber => exact ⟨h.oneLine, hnumber hviolations⟩
  | bigNumber h hnumber => exact ⟨h.oneLine, hnumber hviolations⟩
  | bulkString h => exact h
  | bulkError h => exact h
  | verbatimString h hfront => exact ⟨h, hfront hviolations⟩

theorem SameShell.eq_of_leaf {f g : Frame} (h : Frame.SameShell f g) (hleaf : f.children = []) :
    g = f := by
  have hitems {xs ys : List Frame} (hlength : xs.length = ys.length) (hxs : xs = []) : ys = xs := by
    subst hxs
    exact List.length_eq_zero_iff.mp hlength.symm
  have hpairs {xs ys : List (Frame × Frame)} (hlength : xs.length = ys.length)
      (hxs : (xs.flatMap fun pair => [pair.1, pair.2]) = []) : ys = xs := by
    have hnil : xs = [] := by
      cases xs with
      | nil => rfl
      | cons pair xs => cases hxs
    subst hnil
    exact List.length_eq_zero_iff.mp hlength.symm
  cases h with
  | leaf _ => rfl
  | array h => rw [hitems h hleaf]
  | set h => rw [hitems h hleaf]
  | push h => rw [hitems h hleaf]
  | map h => rw [hpairs h hleaf]
  | «attribute» h => rw [hpairs h hleaf]

/-- A leaf that changed is sound. -/
theorem Kept.sound {f g : Frame} (h : Kept config f g)
    (hviolations : config.generator.violations = false) (hleaf : f.children = []) (hne : g ≠ f) :
    Sound g := by
  cases h with
  | shell h => exact absurd (SameShell.eq_of_leaf h hleaf) hne
  | altered h => exact h.sound hviolations
  | boolean _ => trivial

/-- A changed frame is a leaf of the same kind, and again one that can be parsed. -/
structure KeptLeaf (config : EvilConfig) (f g : Frame) : Prop where
  kept : Kept config f g
  leaf : f.children = [] ∧ g.children = []
  fresh : Fresh g

/-- One frame that is changed keeps its kind. -/
theorem all_mutateOne_kept (hlib : lib.DisplaysDecimals) (hstrategy : config.strategy = .preserve)
    {f : Frame} (hinline : ∀ parts, f ≠ .inline parts) (h : eligible config f = true) :
    (mutateOne lib config f).All fun result => KeptLeaf config f result.1 := by
  have hscalar (overflow : Bool) (kind : MutationKind)
      (hf : GeneratorConfig.isScalar f = true) :
      ((fun g => (g, kind)) <$> config.generator.mutateScalar lib overflow f).All fun result =>
        KeptLeaf config f result.1 := by
    rw [Draw.all_map]
    refine Draw.all_mono (config.generator.all_mutateScalar_altered hlib overflow hf) ?_
    intro g hg
    exact ⟨.altered hg, hg.leaf, hg.fresh⟩
  unfold mutateOne
  by_cases hoverflow : config.mode = .overflow
  · rw [if_pos hoverflow]
    have hf : GeneratorConfig.isScalar f = true := by
      rcases scalar_of_eligible hstrategy h with hf | ⟨hmutate, -⟩
      · exact hf
      · rw [hoverflow] at hmutate
        cases hmutate
    rw [if_pos hf]
    exact hscalar true .overflowValue hf
  · rw [if_neg hoverflow, hstrategy]
    rcases scalar_of_eligible hstrategy h with hf | ⟨hmutate, ⟨value, rfl⟩ | ⟨parts, rfl⟩⟩
    · exact hscalar false .randomValue hf
    · have hfresh : Fresh (.boolean !value) :=
        fresh_of_bounded (Frame.everywhere_iff.mpr ⟨trivial, by simp [Frame.children]⟩)
      exact ⟨.boolean hmutate, ⟨rfl, rfl⟩, hfresh⟩
    · exact absurd rfl (hinline parts)

/-! ## Trees -/

/-- Two trees of the same shape: their positions are the same, and what stands there is
kept. -/
def Preserves (config : EvilConfig) (f g : Frame) : Prop :=
  ∀ p, Option.Rel (Kept config) (f.at? p) (g.at? p)

/-- The same shape, and no deeper. -/
structure PreservesTree (config : EvilConfig) (f g : Frame) : Prop where
  positions : Preserves config f g
  typed : g.Typed
  depth : g.depth ≤ f.depth

theorem KeptLeaf.preservesTree {f g : Frame} (h : KeptLeaf config f g) :
    PreservesTree config f g := by
  have hbranches {f : Frame} (hf : f.children = []) : f.branches = [] := by
    rw [← Frame.branches_snd] at hf
    exact List.map_eq_nil_iff.mp hf
  constructor
  · intro p
    cases p with
    | nil => exact .some h.kept
    | cons step p =>
        simp only [Frame.at?, Tree.at?, hbranches h.leaf.1, hbranches h.leaf.2]
        exact .none
  · exact h.fresh.typed
  · rw [Frame.depth_eq, Frame.depth_eq, h.leaf.1, h.leaf.2]

theorem SameShell.text_eq {f g : Frame} (h : Frame.SameShell f g) : g.text = f.text := by
  cases h <;> rfl

theorem SameShell.inline_eq {f g : Frame} (h : Frame.SameShell f g) {parts : List Bytes}
    (hg : g = .inline parts) : f = .inline parts := by
  cases h with
  | leaf _ => exact hg
  | _ => cases hg

section Below

variable {before : List Step}

/-- What a walk made of one child. -/
def Preserving (config : EvilConfig) (_ : List Step) (f g : Frame) (_ : List AppliedMutation) :
    Prop :=
  PreservesTree config f g

/-- The same steps lead to the children afterwards. -/
theorem lookup_preserves {bs : List (Step × Frame)} {gs : List Frame}
    {log : List AppliedMutation} (h : WalkList (Preserving config) before bs gs log) (step : Step) :
    Option.Rel (PreservesTree config) (bs.lookup step)
      (((bs.map Prod.fst).zip gs).lookup step) := by
  induction h with
  | nil => exact .none
  | @cons b bs g gs _ _ hg _ ih =>
      rw [List.map_cons, List.zip_cons_cons]
      by_cases hstep : step = b.1
      · subst hstep
        rw [List.lookup_cons, List.lookup_cons, beq_self_eq_true]
        exact .some hg
      · have hlookup := Tree.lookup_cons_ne hstep b.2 bs
        rw [hlookup, Tree.lookup_cons_ne hstep]
        exact ih

theorem children_preserves {bs : List (Step × Frame)} {gs : List Frame}
    {log : List AppliedMutation} (h : WalkList (Preserving config) before bs gs log) :
    ∀ g ∈ gs, g.Typed ∧ ∃ b ∈ bs, g.depth ≤ b.2.depth := by
  induction h with
  | nil => simp
  | @cons b bs g gs _ _ hg _ ih =>
      refine List.forall_mem_cons.mpr ⟨⟨hg.typed, b, List.mem_cons_self, hg.depth⟩, ?_⟩
      intro g hmem
      rcases ih g hmem with ⟨htyped, c, hc, hdepth⟩
      exact ⟨htyped, c, List.mem_cons_of_mem b hc, hdepth⟩

/-- The same head, and children that are kept under the same steps. -/
theorem Preserves.of_lookup {f g : Frame} (hshell : Frame.SameShell f g)
    (h : ∀ step, Option.Rel (PreservesTree config) (f.branches.lookup step)
      (g.branches.lookup step)) : Preserves config f g := by
  intro p
  cases p with
  | nil => exact .some (.shell hshell)
  | cons step p =>
      have hstep := h step
      simp only [Frame.at?, Tree.at?]
      generalize f.branches.lookup step = c at hstep ⊢
      generalize g.branches.lookup step = d at hstep ⊢
      cases hstep with
      | none => exact .none
      | some hcd => exact hcd.positions p

/-- Children are changed under the same head. -/
theorem PreservesTree.below {f : Frame} {children : List Frame} {log : List AppliedMutation}
    (hf : f.Typed) (h : WalkList (Preserving config) before f.branches children log) :
    PreservesTree config f (f.rebuild children) := by
  have hlength : children.length = f.children.length := by
    rw [h.length_eq, ← Frame.branches_snd, List.length_map]
  have hshell := Frame.sameShell_rebuild hlength
  have hchildren := children_preserves h
  constructor
  · refine Preserves.of_lookup hshell fun step => ?_
    rw [Frame.branches_rebuild hlength]
    exact lookup_preserves h step
  · rcases Frame.typed_iff.mp hf with ⟨hinline, htext, -⟩
    refine Frame.typed_iff.mpr ⟨?_, ?_, ?_⟩
    · intro parts hparts
      exact hinline parts (SameShell.inline_eq hshell hparts)
    · rw [SameShell.text_eq hshell]
      exact htext
    · rw [Frame.children_rebuild hlength]
      exact fun c hc => (hchildren c hc).1
  · obtain ⟨levels, hlevels⟩ := Nat.exists_eq_add_one_of_ne_zero (Nat.ne_of_gt f.depth_pos)
    rw [hlevels]
    refine Frame.depth_le_succ fun c hc => ?_
    rw [Frame.children_rebuild hlength] at hc
    rcases (hchildren c hc).2 with ⟨b, hb, hdepth⟩
    have hlt := Frame.depth_lt_of_mem_children (Frame.mem_children_of_mem_branches hb)
    omega

end Below

/-- A walk keeps the shape of the tree. -/
theorem preserves_walkRule (hlib : lib.DisplaysDecimals) (hstrategy : config.strategy = .preserve) :
    WalkRule lib config Frame.Typed (Preserving config) := by
  constructor
  · exact fun hf hc => hf.of_mem_children hc
  · intro before f hf heligible
    have hone := all_mutateOne_kept hlib hstrategy hf.inlineFree.ne_inline heligible
    exact Draw.all_mono hone fun result hresult => hresult.preservesTree
  · exact fun hf hchildren => .below hf hchildren

/-! ## Replies -/

/-- The reply is a tree of the same shape, without a length fault. -/
def PreservesReply (config : EvilConfig) (f : Frame) (reply : MutatedReply) : Prop :=
  ∃ g, reply.bytes = g.encode ∧ PreservesTree config f g

/-- With one mutation, the slot is left to the values. -/
theorem all_mutateSingle_preserves (hlib : lib.DisplaysDecimals)
    (hstrategy : config.strategy = .preserve) (hframing : config.framing = .off) {f : Frame}
    (hf : f.Typed) : (mutateSingle lib config f).All (PreservesReply config f) := by
  have hrule : WalkRule lib config _ _ := preserves_walkRule hlib hstrategy
  have hsame : PreservesReply config f { bytes := f.encode, mutations := [] } :=
    ⟨f, rfl, hrule.refl hf []⟩
  have hslot : slotFault config f = return none := by
    rw [slotFault, hframing]
  unfold mutateSingle
  rw [hslot, Draw.all_bind]
  refine Draw.all_done.mpr (Draw.all_bind.mpr ?_)
  refine (safe_shouldApply _).all fun applies => ?_
  cases applies with
  | false => exact hsame
  | true =>
      rw [if_neg (by decide), Draw.all_bind]
      refine Draw.all_of_forall (all_selectWeight f) fun selected => ?_
      cases selected with
      | none => exact hsame
      | some remaining =>
          dsimp only
          rw [Draw.all_bind]
          refine Draw.all_mono (hrule.mutateSelected hf 0 [] remaining) fun result hresult => ?_
          rcases result with ⟨g, selection⟩
          cases selection with
          | hit m => exact ⟨g, rfl, hresult⟩
          | passed rest => exact ⟨g, rfl, hresult⟩

/-- With many mutations, no length fault follows them. -/
theorem all_mutateMany_preserves (hlib : lib.DisplaysDecimals)
    (hstrategy : config.strategy = .preserve) (hframing : config.framing = .off) {f : Frame}
    (hf : f.Typed) : (mutateMany lib config f).All (PreservesReply config f) := by
  have hrule : WalkRule lib config _ _ := preserves_walkRule hlib hstrategy
  unfold mutateMany
  have hwalk := hrule.mutateFrame ((eligibleMaxDepth config f 0).getD 0) hf 0 []
  rw [Draw.all_bind]
  refine Draw.all_mono hwalk fun result hresult => ?_
  have hlength : mutateLength config result.1 = return none := by
    rw [mutateLength, hframing]
  dsimp only
  rw [hlength]
  exact ⟨result.1, rfl, hresult⟩

/-- A mutated reply encodes a tree of the same shape, whose changed texts stay on one
line, whose changed numbers are numbers and whose changed payloads are bounded.  Below the
maximum size it is parsed as that tree. -/
theorem mutate_preserve (lib : Externals) (hlib : lib.DisplaysDecimals) (config : EvilConfig)
    (hmode : config.mode = .mutate ∨ config.mode = .overflow)
    (hstrategy : config.strategy = .preserve) (hframing : config.framing = .off)
    (hviolations : config.generator.violations = false) (input : Bytes) (f : Frame)
    (hparse : parseFrame input = .ok f) (hinline : f.InlineFree) :
    (mutate lib config f).All fun reply => ∃ g, reply.bytes = g.encode ∧
      (∀ p, Option.Rel (Kept config) (f.at? p) (g.at? p)) ∧
      (∀ p c d, f.at? p = some c → g.at? p = some d → c.children = [] → d ≠ c → Sound d) ∧
      (reply.bytes.length ≤ maxFrameBytes → parseFrame reply.bytes = .ok g) := by
  rcases Frame.Accepted.of_parseFrame hparse with ⟨haccepted, hdepth, -⟩
  have hf : f.Typed := haccepted.typed_of_inlineFree hinline
  have hreply : (mutate lib config f).All (PreservesReply config f) := by
    have hactive : ¬ (config.mode ≠ .mutate ∧ config.mode ≠ .overflow) := fun h =>
      hmode.elim h.1 h.2
    rw [mutate, if_neg hactive]
    cases config.mutationCount with
    | one => exact all_mutateSingle_preserves hlib hstrategy hframing hf
    | many => exact all_mutateMany_preserves hlib hstrategy hframing hf
  refine Draw.all_mono hreply fun reply h => ?_
  rcases h with ⟨g, hbytes, hg⟩
  refine ⟨g, hbytes, hg.positions, ?_, ?_⟩
  · intro p c d hc hd hleaf hne
    have hrelated := hg.positions p
    rw [hc, hd] at hrelated
    cases hrelated with
    | some h => exact h.sound hviolations hleaf hne
  · intro hsize
    rw [hbytes] at hsize ⊢
    exact parseFrame_encode hg.typed.inlineFree hg.typed.crlfFree (hg.depth.trans hdepth) hsize

/-- An array with a null and a boolean. -/
theorem mutate_preserve_array :
    (mutate { printable := fun _ => true, displayF64 := fun _ => "0",
              buildRegex := fun _ => .ok fun _ => true, hexEncode := fun _ => "", sha256 := id,
              blake3 := fun _ => "", tlsh := fun _ => "", chacha20 := fun _ _ => 0 }
      { mode := .mutate, strategy := .preserve, probability := .hundred, framing := .off }
      (.array (some [.null, .boolean true]))).All fun reply => ∃ g, reply.bytes = g.encode ∧
        (∀ p, Option.Rel
          (Kept { mode := .mutate, strategy := .preserve, probability := .hundred, framing := .off })
          ((Frame.array (some [.null, .boolean true])).at? p) (g.at? p)) ∧
        (∀ p c d, (Frame.array (some [.null, .boolean true])).at? p = some c → g.at? p = some d →
          c.children = [] → d ≠ c → Sound d) ∧
        (reply.bytes.length ≤ maxFrameBytes → parseFrame reply.bytes = .ok g) :=
  mutate_preserve _ (fun _ _ => show isDecimal "0" = true ∧ (asBytes "0").length ≤ 400 by decide)
    { mode := .mutate, strategy := .preserve, probability := .hundred, framing := .off }
    (.inl rfl) rfl rfl rfl (asBytes "*2\r\n_\r\n#t\r\n") (.array (some [.null, .boolean true]))
    (by decide) (by decide)

end EvilResp
