import EvilResp.Mutation.Fresh
import EvilResp.Mutation.Mutate
import EvilResp.Resp.Reparse

/-!
# Mutations on the wire

Whether the bytes of a reply show that it was mutated.  A change of one frame shows in
the bytes, whatever follows it, so the first change decides.  A length fault in front of
it or beside it shows as well; one inside the first changed frame can spell the bytes of
the original.  Apart from that, only inline commands can hide a change: one that starts
like another frame can be replaced by that frame, and a blank is written like two empty
arguments.

Main results:

- Theorem {lit}`all_mutateOne_apart`: no continuation makes the bytes of a mutated frame
  those of the original.
- Theorem {lit}`rewrites_walkRule`: a walk that logs something leaves a tree with other
  bytes.
- Theorem {lit}`mutate_bytes_ne`: a reply that reports a mutation differs on the wire,
  unless its length fault is inside the first changed frame.
-/

namespace EvilResp

open Library
open EvilResp.Resp
open EvilResp.Resp.Frame (byteOf crlf joinParts)

/-! ## Bytes that part -/

/-- No continuation makes the bytes of two frames equal. -/
def Apart (f g : Frame) : Prop :=
  ∀ s t : Bytes, f.encode ++ s ≠ g.encode ++ t

theorem Apart.encode_ne {f g : Frame} (h : Apart f g) : g.encode ≠ f.encode := by
  intro heq
  exact h [] [] (by rw [heq])

theorem apart_of_fresh {f g : Frame} (haccepted : f.Accepted) (hread : f.Rereadable)
    (hfresh : Fresh g) (hne : g ≠ f) : Apart f g := by
  intro s t heq
  have hsame := haccepted.encode_append_inj hfresh.typed.accepted hread hfresh.typed.rereadable heq
  exact hne hsame.1.symm

theorem space_mem_joinParts {parts : List Bytes} (h : 2 ≤ parts.length) :
    byteOf ' ' ∈ joinParts parts := by
  cases parts with
  | nil => simp at h
  | cons part parts =>
      cases parts with
      | nil => simp at h
      | cons next parts =>
          rw [joinParts_cons]
          exact List.mem_append_right _ List.mem_cons_self

/-- A parsed inline command and different arguments without white space. -/
theorem apart_inline {parts next : List Bytes} (hparts : ParsedParts parts)
    (hblank : parts ≠ [[byteOf ' ']]) (hlength : 2 ≤ next.length)
    (hwords : ∀ part ∈ next, ∀ b ∈ part, isAsciiWhitespace b = false) (hne : next ≠ parts) :
    Apart (.inline parts) (.inline next) := by
  intro s t heq
  have hline : joinParts parts = joinParts next := by
    have hold : splitLine ((Frame.inline parts).encode ++ s) = some (joinParts parts, s) :=
      splitLine_append (noCrlf_joinParts hparts) s
    have hnew : splitLine ((Frame.inline next).encode ++ t) = some (joinParts next, t) :=
      splitLine_append (noCrlf_of_not_mem (lf_not_mem_joinParts hwords)) t
    rw [heq, hnew] at hold
    simp only [Option.some.injEq, Prod.mk.injEq] at hold
    exact hold.1.symm
  rcases hparts with ⟨hnonempty, hold⟩ | ⟨b, -, rfl⟩
  · have hback := splitOnP_joinParts hnonempty fun part hpart => (hold part hpart).2
    rw [hline, splitOnP_joinParts (List.ne_nil_of_length_pos (by omega)) hwords] at hback
    exact hne hback
  · -- A blank is one byte, which would have to be the space between the arguments.
    have hspace := space_mem_joinParts hlength
    rw [← hline] at hspace
    rw [List.mem_singleton.mp hspace] at hblank
    exact hblank rfl

/-! ## Trees that can show a change -/

/-- No inline command of the tree is the blank of a line that starts with a space. -/
def NoBlank (f : Frame) : Prop :=
  f.all (fun | .inline parts => decide (parts ≠ [[byteOf ' ']]) | _ => true) = true

instance : DecidablePred NoBlank := fun f => by
  unfold NoBlank
  infer_instance

theorem noBlank_iff {f : Frame} :
    NoBlank f ↔ (∀ parts, f = .inline parts → parts ≠ [[byteOf ' ']]) ∧
      ∀ c ∈ f.children, NoBlank c := by
  rw [NoBlank, Frame.all_eq_true_iff]
  apply and_congr_left
  intro _
  cases f <;> simp

/-- The inline commands of the tree are not written like what they are changed to. -/
structure Legible (config : EvilConfig) (f : Frame) : Prop where
  rereadable : config.strategy = .replace → f.Rereadable
  noBlank : config.strategy = .preserve → config.mode = .mutate → NoBlank f

theorem Legible.of_mem_children {config : EvilConfig} {f c : Frame} (h : Legible config f)
    (hc : c ∈ f.children) : Legible config c := by
  constructor
  · intro hstrategy
    exact (Frame.rereadable_iff.mp (h.rereadable hstrategy)).2 c hc
  · intro hstrategy hmode
    exact (noBlank_iff.mp (h.noBlank hstrategy hmode)).2 c hc

/-! ## One frame -/

/-- A new frame beside the old one: generated, or an inline command with new arguments. -/
inductive Made (f g : Frame) : Prop where
  | fresh (hread : f.Rereadable) (hfresh : Fresh g)
  | inline {parts next : List Bytes} (hf : f = .inline parts) (hblank : parts ≠ [[byteOf ' ']])
      (hg : g = .inline next) (hlength : 2 ≤ next.length)
      (hwords : ∀ part ∈ next, ∀ b ∈ part, isAsciiWhitespace b = false)

theorem Made.apart {f g : Frame} (h : Made f g) (haccepted : f.Accepted) (hne : g ≠ f) :
    Apart f g := by
  cases h with
  | fresh hread hfresh => exact apart_of_fresh haccepted hread hfresh hne
  | inline hf hblank hg hlength hwords =>
      subst hf hg
      cases haccepted with
      | typed hinline => exact absurd rfl (hinline _)
      | inline hparts =>
          exact apart_inline hparts hblank hlength hwords fun heq => hne (congrArg Frame.inline heq)

theorem Made.short {f g : Frame} (h : Made f g) : g.LengthsLe maxFrameBytes := by
  cases h with
  | fresh _ hfresh => exact hfresh.short.mono (by decide)
  | inline _ _ hg =>
      subst hg
      exact Frame.lengthsLe_iff.mpr ⟨by simp [Frame.declaredLength], by simp [Frame.children]⟩

variable {lib : Externals} {config : EvilConfig}

/-- Scalars have no inline command in them. -/
theorem rereadable_of_scalar {f : Frame} (h : GeneratorConfig.isScalar f = true) :
    f.Rereadable := by
  have hleaf : f.children = [] ∧ ∀ parts, f ≠ .inline parts := by
    unfold GeneratorConfig.isScalar at h
    split at h
    case h_9 => cases h
    all_goals exact ⟨rfl, by simp⟩
  exact Frame.rereadable_iff.mpr
    ⟨fun parts hf => absurd hf (hleaf.2 parts), by simp [hleaf.1]⟩

theorem all_mutateOne_made (hlib : lib.DisplaysDecimals)
    (hmode : config.mode = .mutate ∨ config.mode = .overflow) {f : Frame}
    (hlegible : Legible config f) (h : eligible config f = true) :
    (mutateOne lib config f).All fun result => Made f result.1 := by
  have hscalar (overflow : Bool) (kind : MutationKind)
      (hf : GeneratorConfig.isScalar f = true) :
      ((fun g => (g, kind)) <$> config.generator.mutateScalar lib overflow f).All fun result =>
        Made f result.1 := by
    rw [Draw.all_map]
    exact Draw.all_mono (config.generator.all_mutateScalar_altered hlib overflow hf) fun _ h =>
      .fresh (rereadable_of_scalar hf) h.fresh
  unfold mutateOne
  by_cases hoverflow : config.mode = .overflow
  · rw [if_pos hoverflow]
    by_cases hf : GeneratorConfig.isScalar f = true
    · rw [if_pos hf]
      exact hscalar true .overflowValue hf
    · rw [if_neg hf]
      refine .fresh (hlegible.rereadable ?_) (fresh_integer _)
      -- Under the other strategy only scalars overflow.
      by_contra hstrategy
      have hpreserve : config.strategy = .preserve := by
        cases hcases : config.strategy with
        | preserve => rfl
        | replace => exact absurd hcases hstrategy
      rcases scalar_of_eligible hpreserve h with hscalar | ⟨hmutate, -⟩
      · exact hf hscalar
      · rw [hoverflow] at hmutate
        cases hmutate
  · rw [if_neg hoverflow]
    have hmutate := hmode.resolve_right hoverflow
    cases hstrategy : config.strategy with
    | preserve =>
        rcases scalar_of_eligible hstrategy h with hf | ⟨-, ⟨value, rfl⟩ | ⟨parts, rfl⟩⟩
        · exact hscalar false .randomValue hf
        · have hread : (Frame.boolean value).Rereadable :=
            Frame.rereadable_iff.mpr ⟨by simp, by simp [Frame.children]⟩
          exact .fresh hread (fresh_of_bounded (Frame.everywhere_iff.mpr
            ⟨trivial, by simp [Frame.children]⟩))
        · have hblank := (noBlank_iff.mp (hlegible.noBlank hstrategy hmutate)).1 parts rfl
          dsimp only
          rw [Draw.all_map]
          refine Draw.all_mono (config.generator.all_mutateScalar_inline false parts) fun g hg => ?_
          rcases hg with ⟨next, hnext, hlength, hwords⟩
          exact .inline rfl hblank hnext hlength hwords
    | replace =>
        dsimp only
        rw [Draw.all_map]
        refine Draw.all_mono (config.generator.all_frameAt hlib _) fun g hg => ?_
        refine .fresh (hlegible.rereadable hstrategy) ?_
        unfold replaceFrame
        split_ifs
        · exact fresh_of_bounded hg.bounded
        · exact fresh_integer 1
        · exact fresh_integer 0

/-- No continuation makes the bytes of a mutated frame those of the original. -/
theorem all_mutateOne_apart (hlib : lib.DisplaysDecimals)
    (hmode : config.mode = .mutate ∨ config.mode = .overflow) {f : Frame} (haccepted : f.Accepted)
    (hlegible : Legible config f) (h : eligible config f = true) :
    (mutateOne lib config f).All fun result =>
      Apart f result.1 ∧ result.1.LengthsLe maxFrameBytes ∧ result.2 ≠ .wrongLength := by
  have hmade := all_mutateOne_made hlib hmode hlegible h
  refine Draw.all_mono (Draw.all_and (all_mutateOne hmode h) hmade) fun result hresult => ?_
  rcases hresult with ⟨⟨⟨-, hne⟩, hkind⟩, hmade⟩
  exact ⟨hmade.apart haccepted hne, hmade.short, hkind⟩

/-! ## Headers with other digits -/

/-- Bytes that start a frame, but with other digits in its header. -/
def Redigited (f : Frame) (bytes : Bytes) : Prop :=
  ∃ n kind body replacement after, f.declaredLength = some n ∧
    f.encode = kind :: asBytes (toString n) ++ crlf ++ body ∧
    NoCrlf (asBytes replacement) ∧ replacement ≠ toString n ∧
    bytes = kind :: asBytes replacement ++ crlf ++ after

/-- Other digits in the header at a position of the second tree make no beginning of the
first one. -/
def Exposed (f g : Frame) (p : List Step) : Prop :=
  ∀ c, g.at? p = some c → ∀ bytes, Redigited c bytes → ∀ s,
    f.encode ++ s ≠ g.bytesBefore p ++ bytes

/-- The same of a list of children, with a position below one of them. -/
def ExposedBelow (fs : List Frame) (branches : List (Step × Frame)) (step : Step)
    (p : List Step) : Prop :=
  ∀ d c, branches.lookup step = some d → d.at? p = some c → ∀ bytes, Redigited c bytes → ∀ s,
    fs.flatMap Frame.encode ++ s ≠
      Frame.bytesBeforeChild (Frame.bytesBefore p) step branches ++ bytes

/-- The digits of a header are read off the bytes. -/
theorem Redigited.encode_ne {f g : Frame} {bytes : Bytes} (h : Redigited g bytes)
    (hlength : g.declaredLength = f.declaredLength) (s : Bytes) : f.encode ++ s ≠ bytes := by
  rcases h with ⟨n, kind, body, replacement, after, hn, -, hcrlf, hne, rfl⟩
  intro heq
  rcases Frame.head_declared (hlength ▸ hn : f.declaredLength = some n) with ⟨kind', body', hhead⟩
  have hdigits : NoCrlf (asBytes (toString n)) := noCrlf_of_not_mem (lf_not_mem_toString n)
  rw [Frame.encode_eq, hhead none] at heq
  simp only [Option.getD_none, List.cons_append, List.append_assoc, List.cons.injEq] at heq
  have hsplit := congrArg splitLine heq.2
  have hold := splitLine_append hdigits (body' ++ (f.children.flatMap Frame.encode ++ s))
  have hnew := splitLine_append hcrlf after
  rw [List.append_assoc] at hold hnew
  rw [hold, hnew, Option.some.injEq, Prod.mk.injEq] at hsplit
  exact hne (asBytes_injective hsplit.1).symm

/-! ## Walks -/

/-- The first entry of a log names a frame at or above a position. -/
def Covers (before : List Step) (log : List AppliedMutation) (p : List Step) : Prop :=
  ∃ m q, log.head? = some m ∧ m.path = pathText (before ++ q) ∧ q <+: p

/-- A tree and what a walk made of it: the same tree where nothing was logged, and one
with other bytes where something was. -/
structure Rewrites (before : List Step) (f g : Frame) (log : List AppliedMutation) : Prop where
  unchanged : log = [] → g = f
  apart : log ≠ [] → Apart f g
  exposed : ∀ p, ¬ Covers before log p → Exposed f g p
  kinds : ∀ m ∈ log, m.kind ≠ .wrongLength
  short : g.LengthsLe maxFrameBytes

/-- The same of a list of children. -/
structure RewritesList (before : List Step) (bs : List (Step × Frame)) (gs : List Frame)
    (log : List AppliedMutation) : Prop where
  unchanged : log = [] → gs = bs.map Prod.snd
  apart : log ≠ [] → ∀ s t : Bytes,
    (bs.map Prod.snd).flatMap Frame.encode ++ s ≠ gs.flatMap Frame.encode ++ t
  exposed : ∀ step p, ¬ Covers before log (step :: p) →
    ExposedBelow (bs.map Prod.snd) ((bs.map Prod.fst).zip gs) step p
  kinds : ∀ m ∈ log, m.kind ≠ .wrongLength
  length : gs.length = bs.length
  short : ∀ g ∈ gs, g.LengthsLe maxFrameBytes

theorem Rewrites.here {before : List Step} {f g : Frame} {kind : MutationKind} (h : Apart f g)
    (hshort : g.LengthsLe maxFrameBytes) (hkind : kind ≠ .wrongLength) :
    Rewrites before f g [{ path := pathText before, kind }] := by
  constructor
  · intro hlog
    cases hlog
  · exact fun _ => h
  · intro p hcovers
    exact absurd ⟨_, [], rfl, by simp, List.nil_prefix⟩ hcovers
  · intro m hm
    rw [List.mem_singleton.mp hm]
    exact hkind
  · exact hshort

theorem RewritesList.nil (before : List Step) : RewritesList before [] [] [] := by
  constructor
  · exact fun _ => rfl
  · exact fun hlog => absurd rfl hlog
  · intro step p _ d c hlookup
    cases hlookup
  · simp
  · rfl
  · simp

theorem Covers.cons {before : List Step} {step : Step} {log : List AppliedMutation}
    {p : List Step} (h : Covers (before ++ [step]) log p) (logs : List AppliedMutation) :
    Covers before (log ++ logs) (step :: p) := by
  rcases h with ⟨m, q, hhead, hpath, hprefix⟩
  refine ⟨m, step :: q, ?_, by simpa using hpath, List.cons_prefix_cons.mpr ⟨rfl, hprefix⟩⟩
  rw [List.head?_append, hhead]
  rfl

theorem RewritesList.cons {before : List Step} {b : Step × Frame} {bs : List (Step × Frame)}
    {g : Frame} {gs : List Frame} {log logs : List AppliedMutation}
    (h : Rewrites (before ++ [b.1]) b.2 g log) (hs : RewritesList before bs gs logs) :
    RewritesList before (b :: bs) (g :: gs) (log ++ logs) := by
  constructor
  · intro hlog
    rcases List.append_eq_nil_iff.mp hlog with ⟨hlog, hlogs⟩
    rw [h.unchanged hlog, hs.unchanged hlogs, List.map_cons]
  · intro hlog s t heq
    rw [List.map_cons, List.flatMap_cons, List.flatMap_cons, List.append_assoc,
      List.append_assoc] at heq
    by_cases hfirst : log = []
    · -- The first child is the same, so the others have to differ.
      rw [h.unchanged hfirst] at heq
      have hlogs : logs ≠ [] := fun hlogs => hlog (by rw [hfirst, hlogs]; rfl)
      exact hs.apart hlogs s t (List.append_cancel_left heq)
    · exact h.apart hfirst _ _ heq
  · intro step p hcovers d c hlookup hc bytes hbytes s heq
    rw [List.map_cons, List.zip_cons_cons] at hlookup
    rw [List.map_cons, List.flatMap_cons, List.append_assoc, List.map_cons,
      List.zip_cons_cons] at heq
    by_cases hstep : step = b.1
    · subst hstep
      rw [List.lookup_cons, beq_self_eq_true] at hlookup
      obtain rfl := Option.some.inj hlookup
      rw [Frame.bytesBeforeChild, if_pos rfl] at heq
      exact h.exposed p (fun hfirst => hcovers (hfirst.cons logs)) c hc bytes hbytes _ heq
    · rw [Tree.lookup_cons_ne hstep] at hlookup
      rw [Frame.bytesBeforeChild, if_neg (Ne.symm hstep), List.append_assoc] at heq
      by_cases hfirst : log = []
      · rw [h.unchanged hfirst] at heq
        rw [hfirst, List.nil_append] at hcovers
        exact hs.exposed step p hcovers d c hlookup hc bytes hbytes s (List.append_cancel_left heq)
      · exact h.apart hfirst _ _ heq
  · intro m hm
    rcases List.mem_append.mp hm with hm | hm
    · exact h.kinds m hm
    · exact hs.kinds m hm
  · rw [List.length_cons, List.length_cons, hs.length]
  · exact List.forall_mem_cons.mpr ⟨h.short, hs.short⟩

/-- Children are rewritten under the same head. -/
theorem Rewrites.below {before : List Step} {f : Frame} {children : List Frame}
    {log : List AppliedMutation} (hf : f.LengthsLe maxFrameBytes)
    (h : RewritesList before f.branches children log) :
    Rewrites before f (f.rebuild children) log := by
  have hlength : children.length = f.children.length := by
    rw [h.length, ← Frame.branches_snd, List.length_map]
  have hshell := Frame.sameShell_rebuild hlength
  have hchildren := Frame.children_rebuild hlength
  have happart := h.apart
  have hexposed := h.exposed
  have hunchanged := h.unchanged
  rw [Frame.branches_snd] at happart hexposed hunchanged
  constructor
  · intro hlog
    rw [hunchanged hlog, Frame.rebuild_children]
  · intro hlog s t heq
    rw [Frame.encode_eq f, Frame.encode_eq (f.rebuild children), hshell.head_eq, hchildren,
      List.append_assoc, List.append_assoc] at heq
    exact happart hlog s t (List.append_cancel_left heq)
  · intro p hcovers c hc bytes hbytes s heq
    cases p with
    | nil =>
        cases hc
        exact hbytes.encode_ne hshell.declaredLength_eq s heq
    | cons step p =>
        rcases Option.bind_eq_some_iff.mp hc with ⟨d, hlookup, hc⟩
        rw [Frame.branches_rebuild hlength] at hlookup
        rw [Frame.bytesBefore, Frame.branches_rebuild hlength, hshell.head_eq, Frame.encode_eq f,
          List.append_assoc, List.append_assoc] at heq
        exact hexposed step p hcovers d c hlookup hc bytes hbytes s (List.append_cancel_left heq)
  · exact h.kinds
  · refine Frame.lengthsLe_iff.mpr ⟨fun n hn => ?_, fun c hc => ?_⟩
    · rw [hshell.declaredLength_eq] at hn
      exact (Frame.lengthsLe_iff.mp hf).1 n hn
    · rw [hchildren] at hc
      exact h.short c hc

/-- A parsed tree whose inline commands show their changes. -/
structure ParsedTree (config : EvilConfig) (f : Frame) : Prop where
  accepted : f.Accepted
  legible : Legible config f
  short : f.LengthsLe maxFrameBytes

theorem ParsedTree.of_mem_children {f c : Frame} (h : ParsedTree config f)
    (hc : c ∈ f.children) : ParsedTree config c := by
  constructor
  · cases h.accepted with
    | typed _ _ hchildren => exact hchildren c hc
    | inline _ => cases hc
  · exact h.legible.of_mem_children hc
  · exact (Frame.lengthsLe_iff.mp h.short).2 c hc

theorem rewritesList_of_walkList {before : List Step} {bs : List (Step × Frame)}
    {gs : List Frame} {log : List AppliedMutation} (h : WalkList Rewrites before bs gs log) :
    RewritesList before bs gs log := by
  induction h with
  | nil => exact .nil before
  | cons hg _ ih => exact .cons hg ih

/-- A walk over a parsed tree rewrites it. -/
theorem rewrites_walkRule (hlib : lib.DisplaysDecimals)
    (hmode : config.mode = .mutate ∨ config.mode = .overflow) :
    WalkRule lib config (ParsedTree config) Rewrites := by
  constructor
  · exact fun hf hc => hf.of_mem_children hc
  · intro before f hf heligible
    have hone := all_mutateOne_apart hlib hmode hf.accepted hf.legible heligible
    exact Draw.all_mono hone fun result hresult => .here hresult.1 hresult.2.1 hresult.2.2
  · exact fun hf hchildren => .below hf.short (rewritesList_of_walkList hchildren)

/-! ## Replies -/

/-- The length fault of a log is inside the frame that its first entry changed. -/
def Masked (log : List AppliedMutation) : Prop :=
  ∃ m fault q p, log.head? = some m ∧ m.kind ≠ .wrongLength ∧ m.path = pathText q ∧
    fault ∈ log ∧ fault.kind = .wrongLength ∧ fault.path = pathText p ∧ q <+: p

/-- A log without length faults. -/
theorem not_masked {log : List AppliedMutation} (h : ∀ m ∈ log, m.kind ≠ .wrongLength) :
    ¬ Masked log := by
  rintro ⟨-, fault, -, -, -, -, -, hfault, hkind, -⟩
  exact h fault hfault hkind

/-- A single entry masks nothing. -/
theorem not_masked_of_single {log : List AppliedMutation} (h : log.length ≤ 1) :
    ¬ Masked log := by
  rintro ⟨m, fault, -, -, hhead, hvalue, -, hfault, hkind, -⟩
  cases log with
  | nil => cases hfault
  | cons first rest =>
      obtain rfl : rest = [] := List.length_eq_zero_iff.mp (by simpa using h)
      rw [List.head?_cons, Option.some.injEq] at hhead
      rw [List.mem_singleton.mp hfault, hhead] at hkind
      exact hvalue hkind

theorem Corrupts.noCrlf {original : Int} {kind : LengthCorruption} {replacement : String}
    (h : Corrupts original kind replacement) : NoCrlf (asBytes replacement) := by
  have htext : ∃ n : Int, replacement = toString n := by
    have hobeys := h.obeys
    cases kind with
    | shorter => exact ⟨_, hobeys⟩
    | longer => exact ⟨_, hobeys⟩
    | negative =>
        rcases hobeys with ⟨n, -, hn⟩
        exact ⟨n, hn⟩
    | boundary =>
        rcases hobeys with ⟨n, -, hn⟩
        exact ⟨n, hn⟩
    | overflow =>
        rcases hobeys with ⟨n, -, hn⟩
        exact ⟨n, hn⟩
  rcases htext with ⟨n, rfl⟩
  exact noCrlf_of_not_mem (lf_not_mem_toString n)

/-- A length fault outside the first changed frame shows in the bytes. -/
theorem Rewrites.fault_ne {f g : Frame} {log : List AppliedMutation} {r : MutatedReply}
    (h : Rewrites [] f g log) (hr : LengthFault g r) (hmasked : ¬ Masked (log ++ r.mutations)) :
    r.bytes ≠ f.encode := by
  rcases hr with ⟨p, c, original, kind, replacement, hlog, hc, -, hlength, hbytes, hcorrupts⟩
  rcases hbytes with ⟨byte, body, after, hencode, -, hbytes⟩
  have hwrong : Redigited c (byte :: asBytes replacement ++ crlf ++ (body ++ after)) :=
    ⟨original, byte, body, replacement, body ++ after, hlength, hencode, hcorrupts.noCrlf,
      hcorrupts.ne, rfl⟩
  have huncovered : ¬ Covers [] log p := by
    rintro ⟨m, q, hhead, hpath, hprefix⟩
    have hmem : m ∈ log := List.mem_of_mem_head? hhead
    rw [hlog] at hmasked
    refine hmasked ⟨m, _, q, p, ?_, h.kinds m hmem, hpath,
      List.mem_append_right _ (List.mem_singleton_self _), rfl, rfl, hprefix⟩
    rw [List.head?_append, hhead]
    rfl
  intro heq
  refine h.exposed p huncovered c hc _ hwrong [] ?_
  rw [← heq, hbytes]
  simp

theorem Rewrites.shortLengths {before : List Step} {f g : Frame} {log : List AppliedMutation}
    (h : Rewrites before f g log) : ShortLengths g := by
  intro p c hp n hn
  have hmax : maxFrameBytes < 2 ^ 63 - 1 := by decide
  have hle := h.short.at? hp hn
  omega

/-- What a reply shows of its log. -/
def Visible (f : Frame) (reply : MutatedReply) : Prop :=
  reply.mutations ≠ [] → ¬ Masked reply.mutations → reply.bytes ≠ f.encode

theorem Rewrites.visible {f g : Frame} {log : List AppliedMutation} (h : Rewrites [] f g log) :
    Visible f { bytes := g.encode, mutations := log } :=
  fun hlog _ => (h.apart hlog).encode_ne

theorem Rewrites.fault_visible {f g : Frame} {log : List AppliedMutation} {r : MutatedReply}
    (h : Rewrites [] f g log) (hr : LengthFault g r) :
    Visible f { r with mutations := log ++ r.mutations } :=
  fun _ hmasked => h.fault_ne (r := r) hr hmasked

theorem LengthFault.single {f : Frame} {r : MutatedReply} (h : LengthFault f r) :
    r.mutations.length = 1 := by
  rcases h with ⟨p, c, original, kind, replacement, hlog, -⟩
  rw [hlog]
  rfl

/-- With one mutation there is one entry at most, and it shows. -/
theorem all_mutateSingle_visible (hlib : lib.DisplaysDecimals)
    (hmode : config.mode = .mutate ∨ config.mode = .overflow) {f : Frame}
    (hf : ParsedTree config f) :
    (mutateSingle lib config f).All fun reply =>
      reply.mutations.length ≤ 1 ∧ Visible f reply := by
  have hrule : WalkRule lib config _ _ := rewrites_walkRule hlib hmode
  have hrefl := hrule.refl hf []
  have hslot : (slotFault config f).All fun reply => ∀ r ∈ reply, LengthFault f r := by
    unfold slotFault
    split
    · exact all_lengthFault config hrefl.shortLengths
    · simp
  unfold mutateSingle
  rw [Draw.all_bind]
  refine Draw.all_mono hslot fun fault hfault => ?_
  cases fault with
  | some r =>
      have hr := hfault r rfl
      exact ⟨hr.single.le, hrefl.fault_visible hr⟩
  | none =>
      dsimp only
      rw [Draw.all_bind]
      refine (safe_shouldApply _).all fun applies => ?_
      cases applies with
      | false => exact ⟨Nat.zero_le 1, hrefl.visible⟩
      | true =>
          rw [if_neg (by decide), Draw.all_bind]
          refine Draw.all_of_forall (all_selectWeight f) fun selected => ?_
          cases selected with
          | none => exact ⟨Nat.zero_le 1, hrefl.visible⟩
          | some remaining =>
              dsimp only
              rw [Draw.all_bind]
              have hwalk := hrule.mutateSelected hf 0 [] remaining
              refine Draw.all_mono hwalk fun result hresult => ?_
              rcases result with ⟨g, selection⟩
              cases selection with
              | hit m => exact ⟨le_rfl, Rewrites.visible hresult⟩
              | passed rest => exact ⟨Nat.zero_le 1, Rewrites.visible hresult⟩

/-- With many mutations the value mutations and the fault of the tree after them show. -/
theorem all_mutateMany_visible (hlib : lib.DisplaysDecimals)
    (hmode : config.mode = .mutate ∨ config.mode = .overflow) {f : Frame}
    (hf : ParsedTree config f) :
    (mutateMany lib config f).All fun reply =>
      (config.framing = .off → ∀ m ∈ reply.mutations, m.kind ≠ .wrongLength) ∧
        Visible f reply := by
  unfold mutateMany
  have hrule := rewrites_walkRule hlib hmode
  have hwalk := hrule.mutateFrame ((eligibleMaxDepth config f 0).getD 0) hf 0 []
  rw [Draw.all_bind]
  refine Draw.all_mono hwalk fun result hresult => ?_
  rcases result with ⟨g, log⟩
  dsimp only at hresult ⊢
  have hlength : (mutateLength config g).All fun reply =>
      (config.framing = .off → reply = none) ∧ ∀ r ∈ reply, LengthFault g r := by
    refine Draw.all_and ?_ (all_lengthFault config hresult.shortLengths)
    by_cases hoff : config.framing = .off
    · unfold mutateLength
      rw [hoff]
      exact fun _ => rfl
    · exact Draw.all_of_forall (all_lengthFault config hresult.shortLengths) fun _ h =>
        absurd h hoff
  rw [Draw.all_bind]
  refine Draw.all_mono hlength fun fault hfault => ?_
  cases fault with
  | none => exact ⟨fun _ => hresult.kinds, hresult.visible⟩
  | some r =>
      refine ⟨fun hoff => ?_, hresult.fault_visible (hfault.2 r rfl)⟩
      cases hfault.1 hoff

/-- A reply that reports a mutation differs on the wire, unless its length fault is inside
the frame that its first entry changed.  That takes many mutations and a framing stage. -/
theorem mutate_bytes_ne (lib : Externals) (hlib : lib.DisplaysDecimals) (config : EvilConfig)
    (hmode : config.mode = .mutate ∨ config.mode = .overflow) (input : Bytes) (f : Frame)
    (hparse : parseFrame input = .ok f) (hlegible : Legible config f) :
    (mutate lib config f).All fun reply =>
      (reply.mutations ≠ [] → ¬ Masked reply.mutations → reply.bytes ≠ f.encode) ∧
        (config.mutationCount = .one ∨ config.framing = .off → ¬ Masked reply.mutations) := by
  rcases Frame.Accepted.of_parseFrame hparse with ⟨haccepted, -, hshort⟩
  have hf : ParsedTree config f := ⟨haccepted, hlegible, hshort⟩
  have hactive : ¬ (config.mode ≠ .mutate ∧ config.mode ≠ .overflow) := fun h =>
    hmode.elim h.1 h.2
  rw [mutate, if_neg hactive]
  cases hcount : config.mutationCount with
  | one =>
      refine Draw.all_mono (all_mutateSingle_visible hlib hmode hf) fun reply hreply => ?_
      exact ⟨hreply.2, fun _ => not_masked_of_single hreply.1⟩
  | many =>
      refine Draw.all_mono (all_mutateMany_visible hlib hmode hf) fun reply hreply => ?_
      refine ⟨hreply.2, fun h => not_masked (hreply.1 ?_)⟩
      rcases h with h | h
      · cases h
      · exact h

/-- A boolean that is changed in place. -/
theorem mutate_bytes_ne_boolean :
    (mutate { printable := fun _ => true, displayF64 := fun _ => "0",
              buildRegex := fun _ => .ok fun _ => true, hexEncode := fun _ => "", sha256 := id,
              blake3 := fun _ => "", tlsh := fun _ => "", chacha20 := fun _ _ => 0 }
      { mode := .mutate, strategy := .preserve, probability := .hundred }
      (.boolean true)).All fun reply =>
        (reply.mutations ≠ [] → ¬ Masked reply.mutations →
          reply.bytes ≠ (Frame.boolean true).encode) ∧
        (MutationCount.many = .one ∨ FramingConfig.auto = .off → ¬ Masked reply.mutations) :=
  mutate_bytes_ne _ (fun _ _ => show isDecimal "0" = true ∧ (asBytes "0").length ≤ 400 by decide)
    { mode := .mutate, strategy := .preserve, probability := .hundred } (.inl rfl)
    (asBytes "#t\r\n") (.boolean true) (by decide)
    ⟨fun h => (nomatch h), fun _ _ => by decide⟩

/-- Three replies that report mutations and are sent as they were received.  An empty
array becomes a null array, whose length is then counted up to zero.  A line that only a
space kept apart from an integer becomes that integer.  A blank becomes two empty
arguments. -/
theorem mutate_bytes_eq :
    ∃ lib : Externals,
      (∃ source, parseFrame (asBytes "*0\r\n") = .ok (.array (some [])) ∧
        (Draw.run source (mutate lib
          { mode := .mutate, strategy := .replace, probability := .hundred }
          (.array (some [])))).map (fun reply => (reply.mutations.length, reply.bytes)) =
            some (2, (Frame.array (some [])).encode)) ∧
      (∃ source, parseFrame (asBytes " :9223372036854775807\r\n") =
          .ok (.inline [asBytes ":9223372036854775807"]) ∧
        (Draw.run source (mutate lib
          { mode := .overflow, strategy := .replace, probability := .hundred }
          (.inline [asBytes ":9223372036854775807"]))).map
            (fun reply => (reply.mutations.length, reply.bytes)) =
            some (1, (Frame.inline [asBytes ":9223372036854775807"]).encode)) ∧
      ∃ source, parseFrame (asBytes " \r\n") = .ok (.inline [asBytes " "]) ∧
        (Draw.run source (mutate lib
          { mode := .mutate, strategy := .preserve, probability := .hundred }
          (.inline [asBytes " "]))).map (fun reply => (reply.mutations.length, reply.bytes)) =
            some (1, (Frame.inline [asBytes " "]).encode) := by
  let lib : Externals :=
    { printable := fun _ => true, displayF64 := fun _ => "0",
      buildRegex := fun _ => .ok fun _ => true, hexEncode := fun _ => "", sha256 := id,
      blake3 := fun _ => "", tlsh := fun _ => "", chacha20 := fun _ _ => 0 }
  refine ⟨lib, ?_, ?_, ?_⟩
  · exact ⟨fun drawn => if drawn.head? = some 7 then 5 else 0, by decide, by decide +kernel⟩
  · exact ⟨fun _ => 0, by decide, by decide +kernel⟩
  · exact ⟨fun _ => 0, by decide, by decide +kernel⟩

end EvilResp
