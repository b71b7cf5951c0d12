import EvilResp.Mutation.Preserve
import EvilResp.Mutation.Replay
import EvilResp.Mutation.Settled
import EvilResp.Resp.Grammar

/-!
# Replies that can be read

A client can read a tree without inline commands whose texts are on lines, if it is not
nested too deep.  The canonical form of a reply and its mutated form stay such trees; only
a replacement may nest deeper.  Without a length fault a reply is therefore one frame.

Main results:

- Theorem {lit}`Readable.isFrame`: a tree that can be read is written as one frame.
- Theorem {lit}`Readable.mutateCommandReply`: without length faults a changed reply can be
  read.
-/

namespace EvilResp

open Library
open EvilResp.Resp

/-! ## Readable trees -/

/-- A tree that is not nested too deep, whose texts are on lines. -/
structure Readable (levels : Nat) (f : Frame) : Prop where
  inlineFree : f.InlineFree
  lfFree : f.LfFree
  depth : f.depth ≤ levels

theorem readable_iff {levels : Nat} {f : Frame} :
    Readable (levels + 1) f ↔ (∀ parts, f ≠ .inline parts) ∧
      (∀ value, f.text = some value → (10 : UInt8) ∉ asBytes value) ∧
      ∀ c ∈ f.children, Readable levels c := by
  constructor
  · intro h
    refine ⟨h.inlineFree.ne_inline, ?_, fun c hc => ⟨?_, ?_, ?_⟩⟩
    · intro value hvalue
      exact of_decide_eq_true ((Frame.textAll_iff.mp h.lfFree).1 value hvalue)
    · exact h.inlineFree.of_mem_children hc
    · exact h.lfFree.of_mem_children hc
    · have hlt := Frame.depth_lt_of_mem_children hc
      have hdepth := h.depth
      omega
  · rintro ⟨hinline, htext, hchildren⟩
    constructor
    · exact Frame.inlineFree_iff.mpr ⟨hinline, fun c hc => (hchildren c hc).inlineFree⟩
    · refine Frame.textAll_iff.mpr ⟨?_, fun c hc => (hchildren c hc).lfFree⟩
      exact fun value hvalue => decide_eq_true (htext value hvalue)
    · exact Frame.depth_le_succ fun c hc => (hchildren c hc).depth

theorem Readable.mono {levels more : Nat} {f : Frame} (h : Readable levels f)
    (hle : levels ≤ more) : Readable more f :=
  ⟨h.inlineFree, h.lfFree, h.depth.trans hle⟩

/-- A tree that can be read is written as one frame, if it fits. -/
theorem Readable.isFrame {f : Frame} (h : Readable maxFrameDepth f)
    (hsize : f.encode.length ≤ maxFrameBytes) : IsFrame f.encode :=
  isFrame_of_readRawFrame (readRawFrame_encode h.inlineFree h.lfFree h.depth hsize [])

/-- What was read and parsed can be read again. -/
theorem readable_of_readRawFrame {input raw rest : Bytes} {f : Frame}
    (hread : Resp.readRawFrame input = .ok (raw, rest)) (hparse : parseFrame raw = .ok f)
    (hinline : f.InlineFree) : Readable maxFrameDepth f :=
  ⟨hinline, lfFree_of_readRawFrame hread hparse, (Resp.Frame.Accepted.of_parseFrame hparse).2.1⟩

/-- An aggregate of children that can be read. -/
theorem Readable.of_children {levels : Nat} {f g : Frame} (h : Readable levels f)
    (hinline : ∀ parts, g ≠ .inline parts) (htext : g.text = none)
    (hchildren : ∀ c ∈ g.children, c ∈ f.children) : Readable levels g := by
  obtain ⟨below, rfl⟩ : ∃ below, levels = below + 1 :=
    ⟨levels - 1, by have := h.depth; have := f.depth_pos; omega⟩
  refine readable_iff.mpr ⟨hinline, by simp [htext], fun c hc => ?_⟩
  exact (readable_iff.mp h).2.2 c (hchildren c hc)

/-- Other children under the same head. -/
theorem Readable.rebuild {levels more : Nat} {f : Frame} {items : List Frame}
    (h : Readable levels f) (hlength : items.length = f.children.length)
    (hitems : ∀ c ∈ items, ∀ below, levels = below + 1 → Readable (below + more) c) :
    Readable (levels + more) (f.rebuild items) := by
  obtain ⟨below, rfl⟩ : ∃ below, levels = below + 1 :=
    ⟨levels - 1, by have := h.depth; have := f.depth_pos; omega⟩
  have hshell := Frame.sameShell_rebuild hlength
  rcases readable_iff.mp h with ⟨hinline, htext, -⟩
  rw [Nat.add_right_comm]
  refine readable_iff.mpr ⟨?_, ?_, ?_⟩
  · intro parts hparts
    exact hinline parts (SameShell.inline_eq hshell hparts)
  · rwa [SameShell.text_eq hshell]
  · rw [Frame.children_rebuild hlength]
    exact fun c hc => hitems c hc below rfl

/-! ## Canonical forms -/

section

variable {mode : CanonicalizationMode} {command : Option String} {levels : Nat}

/-- Reordered children can be read as before. -/
theorem Reordered.readable {f g : Frame} (h : Reordered mode f g) (hf : Readable levels f) :
    Readable levels g := by
  induction h generalizing levels with
  | refl => exact hf
  | trans _ _ ih₁ ih₂ => exact ih₂ (ih₁ hf)
  | @child f c d before after hchildren _ ih =>
      have hlength : (before ++ d :: after).length = f.children.length := by simp [hchildren]
      refine @Readable.rebuild levels 0 f _ hf hlength fun e he below hlevels => ?_
      subst hlevels
      have hmem := (readable_iff.mp hf).2.2
      rw [hchildren] at hmem
      rcases List.mem_append.mp he with hbefore | hrest
      · exact hmem e (by simp [hbefore])
      · rcases List.mem_cons.mp hrest with rfl | hafter
        · exact ih (hmem c (by simp))
        · exact hmem e (by simp [hafter])
  | array _ hperm => exact hf.of_children nofun rfl fun c hc => hperm.mem_iff.mpr hc
  | push _ hperm => exact hf.of_children nofun rfl fun c hc => hperm.mem_iff.mpr hc
  | set hperm => exact hf.of_children nofun rfl fun c hc => hperm.mem_iff.mpr hc
  | map hperm => exact hf.of_children nofun rfl fun c hc => (perm_flatten hperm).mem_iff.mpr hc
  | «attribute» hperm =>
      exact hf.of_children nofun rfl fun c hc => (perm_flatten hperm).mem_iff.mpr hc

theorem ReorderedReply.readable {f g : Frame} (h : ReorderedReply mode command f g)
    (hf : Readable levels f) : Readable levels g := by
  induction h with
  | nested h => exact h.readable hf
  | trans _ _ ih₁ ih₂ => exact ih₂ (ih₁ hf)
  | items _ _ _ hperm => exact hf.of_children nofun rfl fun c hc => hperm.mem_iff.mpr hc
  | pairs _ _ hperm _ =>
      refine hf.of_children nofun rfl fun c hc => ?_
      exact ((perm_flatten hperm).append_right _).mem_iff.mpr hc

theorem ReorderedItems.readable {commands : List String} {fs gs : List Frame}
    (h : ReorderedItems mode commands fs gs) (hfs : ∀ f ∈ fs, Readable levels f) :
    ∀ g ∈ gs, Readable levels g := by
  induction h with
  | rest => exact hfs
  | cons hfirst _ ih =>
      rcases List.forall_mem_cons.mp hfs with ⟨hf, hfs⟩
      exact List.forall_mem_cons.mpr ⟨hfirst.readable hf, ih hfs⟩

/-- The results of a transaction can be read in their canonical form. -/
theorem readable_canonicalizeTransactionReply {commands : List String} {f : Frame}
    (hf : Readable levels f) :
    Readable levels (canonicalizeTransactionReply mode commands f) := by
  unfold canonicalizeTransactionReply
  split
  · rename_i items
    obtain ⟨below, rfl⟩ : ∃ below, levels = below + 1 :=
      ⟨levels - 1, by have := hf.depth; have := Frame.depth_pos (.array (some items)); omega⟩
    have hitems := (readable_iff.mp hf).2.2
    exact readable_iff.mpr ⟨nofun, nofun, (reordered_results mode commands items).readable hitems⟩
  · exact hf

theorem readable_canonicalizeReply {f : Frame} (hf : Readable levels f) :
    Readable levels (canonicalizeReply mode command f) :=
  (settles_reply mode command f).reordered.readable hf

end

/-! ## Changed replies -/

/-- The reply is a tree that can be read. -/
def ReadableReply (levels : Nat) (reply : MutatedReply) : Prop :=
  ∃ g, reply.bytes = g.encode ∧ Readable levels g

/-- An edited transaction has results of the original one. -/
theorem ExecConfig.readable_mutateReply {lib : Externals} {config : EvilConfig} {levels : Nat}
    {commandIndex : UInt64} {commandHash upstreamHash : String} {f : Frame} {reply : MutatedReply}
    (hf : Readable levels f)
    (h : ExecConfig.mutateReply lib config commandIndex commandHash upstreamHash f =
      some (some reply)) :
    ReadableReply levels reply := by
  unfold ExecConfig.mutateReply at h
  split at h
  · cases h
  · rename_i items heditable
    rcases editable_spec heditable with ⟨hitems, hswap⟩
    obtain rfl := eq_array_of_editable heditable
    rcases Draw.run_of_all (all_edit_replayed hitems hswap)
      (rngFor lib config.seed commandIndex ("exec:" ++ commandHash) upstreamHash) with
      ⟨edited, hedited, hreplayed⟩
    rw [hedited] at h
    rcases hreplayed reply (Option.some.inj h) with ⟨kind, record, result, rfl, hreplay, -⟩
    have hsubset := (replay_spec hreplay).2
    exact ⟨_, rfl, hf.of_children nofun rfl fun c hc => hsubset hc⟩

section

variable {lib : Externals} {config : EvilConfig}

theorem readable_of_bounded {levels : Nat} {f : Frame} (h : f.Everywhere Bounded)
    (hdepth : f.depth ≤ levels) : Readable levels f := by
  induction f using Frame.childInduction generalizing levels with
  | step f ih =>
      obtain ⟨below, rfl⟩ : ∃ below, levels = below + 1 :=
        ⟨levels - 1, by have := f.depth_pos; omega⟩
      have hline {s : String} (hs : ShortLine s) : (10 : UInt8) ∉ asBytes s :=
        singleLine_iff_bytes.mp hs.oneLine.singleLine
      refine readable_iff.mpr ⟨?_, ?_, fun c hc => ?_⟩
      · rintro parts rfl
        exact h.here
      · intro value hvalue
        have hhere := h.here
        cases f with
        | simpleString s => exact Option.some.inj hvalue ▸ hline hhere
        | simpleError s => exact Option.some.inj hvalue ▸ hline hhere
        | double s => exact Option.some.inj hvalue ▸ hline hhere
        | bigNumber s => exact Option.some.inj hvalue ▸ hline hhere
        | _ => cases hvalue
      · have hlt := Frame.depth_lt_of_mem_children hc
        exact ih c hc (h.of_mem_children hc) (by omega)

theorem readable_leaf {f : Frame} (h : Bounded f) (hleaf : f.children = []) : Readable 1 f := by
  apply readable_of_bounded
  · exact Frame.everywhere_iff.mpr ⟨h, by simp [hleaf]⟩
  · exact Frame.depth_le_succ (by simp [hleaf])

/-- Levels that a replacement may add below the frame it replaces. -/
def EvilConfig.slack (config : EvilConfig) : Nat :=
  if config.mode = .overflow ∨ config.strategy = .preserve then 0 else maxDepth - 1

/-- One frame that is changed nests no deeper than it may. -/
theorem all_mutateOne_readable (hlib : lib.DisplaysDecimals) {f : Frame}
    (hinline : ∀ parts, f ≠ .inline parts) (h : eligible config f = true) :
    (mutateOne lib config f).All fun result => Readable (1 + config.slack) result.1 := by
  have hleaf {g : Frame} (hg : Bounded g) (hchildren : g.children = []) :
      Readable (1 + config.slack) g :=
    (readable_leaf hg hchildren).mono (Nat.le_add_right 1 _)
  have hscalar (overflow : Bool) (kind : MutationKind)
      (hf : GeneratorConfig.isScalar f = true) :
      ((fun g => (g, kind)) <$> config.generator.mutateScalar lib overflow f).All fun result =>
        Readable (1 + config.slack) result.1 := by
    rw [Draw.all_map]
    apply Draw.all_mono (config.generator.all_mutateScalar_altered hlib overflow hf)
    exact fun g hg => hleaf hg.bounded hg.leaf.2
  unfold mutateOne
  by_cases hoverflow : config.mode = .overflow
  · rw [if_pos hoverflow]
    split
    · rename_i hf
      exact hscalar true .overflowValue hf
    · exact hleaf trivial rfl
  · rw [if_neg hoverflow]
    cases hstrategy : config.strategy with
    | preserve =>
        rcases scalar_of_eligible hstrategy h with hf | ⟨-, ⟨value, rfl⟩ | ⟨parts, rfl⟩⟩
        · exact hscalar false .randomValue hf
        · exact hleaf trivial rfl
        · exact absurd rfl (hinline parts)
    | replace =>
        have hslack : 1 + config.slack = maxDepth := by
          rw [EvilConfig.slack, if_neg (by simp [hoverflow, hstrategy])]
          rfl
        dsimp only
        rw [Draw.all_map]
        apply Draw.all_mono (config.generator.all_frameAt hlib (maxDepth - 1))
        intro g hg
        dsimp only
        unfold replaceFrame
        split_ifs
        · rw [hslack]
          exact readable_of_bounded hg.bounded hg.depth
        · exact hleaf trivial rfl
        · exact hleaf trivial rfl

theorem WalkList.exists_of_mem {R : List Step → Frame → Frame → List AppliedMutation → Prop}
    {before : List Step} {bs : List (Step × Frame)} {gs : List Frame} {log : List AppliedMutation}
    (h : WalkList R before bs gs log) :
    ∀ g ∈ gs, ∃ b ∈ bs, ∃ log, R (before ++ [b.1]) b.2 g log := by
  induction h with
  | nil => simp
  | @cons b bs g gs log logs hfirst _ ih =>
      refine List.forall_mem_cons.mpr ⟨⟨b, List.mem_cons_self, log, hfirst⟩, fun g hg => ?_⟩
      rcases ih g hg with ⟨c, hc, found⟩
      exact ⟨c, List.mem_cons_of_mem b hc, found⟩

/-- A changed tree nests no deeper than its changed frames may. -/
def StaysReadable (config : EvilConfig) (_ : List Step) (f g : Frame) (_ : List AppliedMutation) :
    Prop :=
  ∀ levels, Readable levels f → Readable (levels + config.slack) g

theorem walkRule_readable (hlib : lib.DisplaysDecimals) :
    WalkRule lib config Frame.InlineFree (StaysReadable config) where
  child := fun hf hc => hf.of_mem_children hc
  here := by
    intro before f hf heligible
    apply Draw.all_mono (all_mutateOne_readable hlib hf.ne_inline heligible)
    intro result hresult levels hlevels
    have hpos := f.depth_pos
    have hdepth := hlevels.depth
    exact hresult.mono (by omega)
  below := by
    intro before f children log hf hlist levels hlevels
    have hlength : children.length = f.children.length := by
      rw [hlist.length_eq, ← Frame.branches_snd, List.length_map]
    refine hlevels.rebuild hlength fun c hc below heq => ?_
    subst heq
    rcases hlist.exists_of_mem c hc with ⟨b, hb, found, hkept⟩
    exact hkept below ((readable_iff.mp hlevels).2.2 b.2 (Frame.mem_children_of_mem_branches hb))

/-- A changed reply can be read, unless it has a length fault. -/
theorem Readable.mutateCommandReply (hlib : lib.DisplaysDecimals) (hheaders : config.KeepsHeaders)
    {levels : Nat} {commandIndex : UInt64} {command : Option String}
    {commandHash upstreamHash : String} {f : Frame} {reply : MutatedReply}
    (hf : Readable levels f)
    (h : mutateCommandReply lib config commandIndex command commandHash upstreamHash f =
      some reply) :
    ReadableReply (levels + config.slack) reply := by
  have hvalues (hreply : mutateReply lib config commandIndex commandHash upstreamHash f =
      some reply) : ReadableReply (levels + config.slack) reply := by
    have hrule : WalkRule lib config _ _ := walkRule_readable hlib
    rcases Draw.run_of_all (hrule.walked_mutate hf.inlineFree)
      (rngFor lib config.seed commandIndex commandHash upstreamHash) with
      ⟨other, hother, hwalked⟩
    rw [mutateReply, hother] at hreply
    obtain rfl := Option.some.inj hreply
    rcases hwalked with ⟨hfaults, -⟩ | ⟨g, hbytes, hkept⟩
    · exact absurd hheaders hfaults
    · exact ⟨g, hbytes, hkept levels hf⟩
  unfold EvilResp.mutateCommandReply at h
  split_ifs at h
  · rcases hedited : ExecConfig.mutateReply lib config commandIndex commandHash upstreamHash f with
      _ | _ | edited
    · simp [hedited] at h
    · simp only [hedited, Option.bind_eq_bind, Option.bind_some] at h
      exact hvalues h
    · simp only [hedited, Option.bind_eq_bind, Option.bind_some] at h
      obtain rfl := Option.some.inj h
      rcases ExecConfig.readable_mutateReply hf hedited with ⟨g, hbytes, hg⟩
      exact ⟨g, hbytes, hg.mono (Nat.le_add_right _ _)⟩
  · exact hvalues h

/-- A generated reply can be read. -/
theorem readable_randomReply (hlib : lib.DisplaysDecimals) {commandIndex : UInt64}
    {commandHash : String} {reply : MutatedReply}
    (h : randomReply lib config commandIndex commandHash = some reply) :
    ReadableReply maxDepth reply := by
  rcases Draw.run_of_all (config.generator.all_frameAt hlib (maxDepth - 1))
    (rngFor lib config.seed commandIndex commandHash "") with ⟨f, hf, hgenerated⟩
  rw [randomReply, GeneratorConfig.frame, hf] at h
  cases h
  exact ⟨f, rfl, readable_of_bounded hgenerated.bounded hgenerated.depth⟩

end

end EvilResp
