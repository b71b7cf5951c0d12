import EvilResp.Mutation.Framing
import EvilResp.Mutation.Generator

/-!
# Mutated replies

Mutations are applied to the original reply tree.  A replaced subtree is terminal:
only original frames are selected.  Nested frames can be favoured by weights that
double with every level.

Main results:

- Theorem {lit}`all_mutateFrame`: a walk over all frames edits the tree exactly at the
  logged positions.
- Theorem {lit}`all_mutateSelected`: a selected weight edits exactly one frame, as long
  as it is below the total.
- Theorem {lit}`all_mutate`: the log of a mutated reply is exact.
-/

namespace EvilResp

open Library
open EvilResp.Resp

/-! ## Eligible frames -/

/-- A frame that the settings let mutate. -/
def eligible (config : EvilConfig) (f : Frame) : Bool :=
  if config.strategy = .replace then true
  else
    match f with
    | .simpleString _ | .simpleError _ | .integer _ | .bulkString (some _) | .double _
    | .bigNumber _ | .bulkError _ | .verbatimString _ => true
    | .boolean _ | .inline _ => config.mode = .mutate
    | _ => false

/-- The weight of one frame. -/
def frameWeight (config : EvilConfig) (f : Frame) (depth : Nat) : Nat :=
  if eligible config f then config.depth.weight depth else 0

/-- Total selection weight of all eligible frames in the tree. -/
def eligibleWeight (config : EvilConfig) : Frame → Nat → Nat :=
  Frame.fold fun f walks depth =>
    frameWeight config f depth + (walks.map fun walk => walk (depth + 1)).sum

/-- Deepest nesting level that holds an eligible frame, if any. -/
def eligibleMaxDepth (config : EvilConfig) : Frame → Nat → Option Nat :=
  Frame.fold fun f walks depth =>
    walks.foldl (fun deepest walk => max deepest (walk (depth + 1)))
      (if eligible config f then some depth else none)

/-- Draw the cumulative weight of the frame to mutate.  Under {lit}`ANY` every weight is
one, so the total is the number of eligible frames. -/
def selectWeight (config : EvilConfig) (f : Frame) : Draw (Option Nat) := do
  let total := eligibleWeight config f 0
  if total = 0 then return none
  else some <$> genRange 0 total

/-! ## One frame -/

/-- The replacement of a frame, never equal to it. -/
def replaceFrame (f replacement : Frame) : Frame :=
  if f ≠ replacement then replacement
  else if f = .integer 0 then .integer 1
  else .integer 0

/-- A frame in place of another one. -/
def mutateOne (lib : Externals) (config : EvilConfig) (f : Frame) : Draw (Frame × MutationKind) :=
  if config.mode = .overflow then
    if GeneratorConfig.isScalar f then
      (fun g => (g, .overflowValue)) <$> config.generator.mutateScalar lib true f
    else return (.integer 9223372036854775807, .overflowValue)
  else
    match config.strategy with
    | .preserve => (fun g => (g, .randomValue)) <$> config.generator.mutateScalar lib false f
    | .replace => (fun g => (replaceFrame f g, .randomFrame)) <$> config.generator.frame lib

/-! ## Many mutations -/

/-- Walk over prepared children, collecting them and their logs. -/
def walkBranches {α : Type} (path : String) :
    List (Step × (String → Draw (Frame × List α))) → Draw (List Frame × List α)
  | [] => return ([], [])
  | (step, walk) :: branches => do
      let (child, log) ← walk (path ++ step.text)
      let (children, logs) ← walkBranches path branches
      return (child :: children, log ++ logs)

/-- Draw whether one frame is mutated by the walk over all frames. -/
def frameApplies (config : EvilConfig) (maxDepth : Nat) (f : Frame) (depth : Nat) : Draw Bool :=
  if eligible config f then
    shouldApply (config.depth.scale config.probability depth maxDepth)
  else return false

/-- Mutate every eligible frame with its own probability.  The descendants of a
replacement are not visited. -/
def mutateFrame (lib : Externals) (config : EvilConfig) (maxDepth : Nat) :
    Frame → Nat → String → Draw (Frame × List AppliedMutation) :=
  Frame.fold fun f walks depth path => do
    let applies ← frameApplies config maxDepth f depth
    if applies then
      let (replacement, kind) ← mutateOne lib config f
      return (replacement, [{ path, kind }])
    else
      let (children, log) ← walkBranches path (f.steps.zip (walks.map fun walk => walk (depth + 1)))
      return (f.rebuild children, log)

/-! ## One mutation -/

/-- The outcome of a walk with a cumulative weight. -/
inductive Selection where
  | passed (remaining : Nat)
  | hit (mutation : AppliedMutation)

/-- Walk over prepared children until one of them is hit. -/
def selectBranches (path : String) :
    List (Step × Frame × (String → Nat → Draw (Frame × Selection))) → Nat →
      Draw (List Frame × Selection)
  | [], remaining => return ([], .passed remaining)
  | (step, child, walk) :: branches, remaining => do
      let (child', selection) ← walk (path ++ step.text) remaining
      match selection with
      | .hit mutation => return (child' :: branches.map fun branch => branch.2.1, .hit mutation)
      | .passed remaining =>
          let (children, selection) ← selectBranches path branches remaining
          return (child :: children, selection)

/-- Mutate the frame on which a cumulative weight falls. -/
def mutateSelected (lib : Externals) (config : EvilConfig) :
    Frame → Nat → String → Nat → Draw (Frame × Selection) :=
  Frame.fold fun f walks depth path remaining => do
    if eligible config f ∧ remaining < config.depth.weight depth then
      let (replacement, kind) ← mutateOne lib config f
      return (replacement, .hit { path, kind })
    else
      let (children, selection) ←
        selectBranches path
          (f.steps.zip (f.children.zip (walks.map fun walk => walk (depth + 1))))
          (remaining - frameWeight config f depth)
      return (f.rebuild children, selection)

/-! ## Replies -/

/-- The fault that may take the slot of a single mutation. -/
def slotFault (config : EvilConfig) (f : Frame) : Draw (Option MutatedReply) :=
  match config.framing with
  | .length _ => mutateLength config f
  | _ => return none

/-- At most one mutation: a configured length fault has priority for the slot. -/
def mutateSingle (lib : Externals) (config : EvilConfig) (f : Frame) : Draw MutatedReply := do
  match ← slotFault config f with
  | some reply => return reply
  | none =>
      let applies ← shouldApply config.probability
      if !applies then return { bytes := f.encode, mutations := [] }
      else
        match ← selectWeight config f with
        | none => return { bytes := f.encode, mutations := [] }
        | some remaining =>
            let (g, selection) ← mutateSelected lib config f 0 "root" remaining
            match selection with
            | .hit mutation => return { bytes := g.encode, mutations := [mutation] }
            | .passed _ => return { bytes := g.encode, mutations := [] }

/-- Value mutations, then a length fault of the final tree. -/
def mutateMany (lib : Externals) (config : EvilConfig) (f : Frame) : Draw MutatedReply := do
  let maxDepth := (eligibleMaxDepth config f 0).getD 0
  let (g, mutations) ← mutateFrame lib config maxDepth f 0 "root"
  match ← mutateLength config g with
  | some reply => return { reply with mutations := mutations ++ reply.mutations }
  | none => return { bytes := g.encode, mutations }

/-- A reply with as many mutations as configured. -/
def mutate (lib : Externals) (config : EvilConfig) (f : Frame) : Draw MutatedReply :=
  if config.mode ≠ .mutate ∧ config.mode ≠ .overflow then
    return { bytes := f.encode, mutations := [] }
  else
    match config.mutationCount with
    | .one => mutateSingle lib config f
    | .many => mutateMany lib config f

/-! ## One level of a walk -/

theorem mutateFrame_eq (lib : Externals) (config : EvilConfig) (maxDepth : Nat) (f : Frame)
    (depth : Nat) (path : String) :
    mutateFrame lib config maxDepth f depth path = (do
      let applies ← frameApplies config maxDepth f depth
      if applies then
        let (replacement, kind) ← mutateOne lib config f
        return (replacement, [{ path, kind }])
      else
        let (children, log) ←
          walkBranches path
            (f.branches.map fun b => (b.1, mutateFrame lib config maxDepth b.2 (depth + 1)))
        return (f.rebuild children, log)) := by
  rw [mutateFrame, Frame.fold_eq, List.map_map, Frame.zip_steps]
  rfl

theorem mutateSelected_eq (lib : Externals) (config : EvilConfig) (f : Frame) (depth : Nat)
    (path : String) (remaining : Nat) :
    mutateSelected lib config f depth path remaining = (do
      if eligible config f ∧ remaining < config.depth.weight depth then
        let (replacement, kind) ← mutateOne lib config f
        return (replacement, .hit { path, kind })
      else
        let (children, selection) ←
          selectBranches path
            (f.branches.map fun b => (b.1, b.2, mutateSelected lib config b.2 (depth + 1)))
            (remaining - frameWeight config f depth)
        return (f.rebuild children, selection)) := by
  have hzip : ∀ g : Frame → String → Nat → Draw (Frame × Selection),
      f.children.zip (f.children.map g) = f.children.map fun c => (c, g c) := by
    intro g
    rw [← List.map_prod_left_eq_zip]
  rw [mutateSelected, Frame.fold_eq, List.map_map, hzip, Frame.zip_steps]
  rfl

theorem eligibleWeight_eq (config : EvilConfig) (f : Frame) (depth : Nat) :
    eligibleWeight config f depth =
      frameWeight config f depth +
        (f.branches.map fun b => eligibleWeight config b.2 (depth + 1)).sum := by
  rw [eligibleWeight, Frame.fold_eq, List.map_map, ← Frame.branches_snd, List.map_map]
  rfl

theorem eligibleMaxDepth_eq (config : EvilConfig) (f : Frame) (depth : Nat) :
    eligibleMaxDepth config f depth =
      (f.branches.map fun b => eligibleMaxDepth config b.2 (depth + 1)).foldl max
        (if eligible config f then some depth else none) := by
  rw [eligibleMaxDepth, Frame.fold_eq, ← Frame.branches_snd, List.foldl_map, List.foldl_map,
    List.foldl_map]

/-! ## One frame changes -/

/-- An eligible frame that was replaced by a different one. -/
def Change (config : EvilConfig) (f g : Frame) : Prop :=
  eligible config f = true ∧ g ≠ f

theorem replaceFrame_ne (f replacement : Frame) : replaceFrame f replacement ≠ f := by
  unfold replaceFrame
  split_ifs with hdifferent hzero
  · exact Ne.symm hdifferent
  · rw [hzero]
    decide
  · exact Ne.symm hzero

variable {lib : Externals} {config : EvilConfig}

/-- What is changed in place: scalars, and outside overflow also booleans and inline
commands. -/
theorem scalar_of_eligible {f : Frame} (hstrategy : config.strategy = .preserve)
    (h : eligible config f = true) :
    GeneratorConfig.isScalar f = true ∨
      config.mode = .mutate ∧ ((∃ value, f = .boolean value) ∨ ∃ parts, f = .inline parts) := by
  unfold eligible at h
  rw [hstrategy, if_neg (by decide)] at h
  split at h
  case h_9 value => exact .inr ⟨of_decide_eq_true h, .inl ⟨value, rfl⟩⟩
  case h_10 parts => exact .inr ⟨of_decide_eq_true h, .inr ⟨parts, rfl⟩⟩
  case h_11 => cases h
  all_goals exact .inl rfl

/-- Whatever kind an eligible frame has, it changes. -/
theorem all_mutateOne (hmode : config.mode = .mutate ∨ config.mode = .overflow) {f : Frame}
    (h : eligible config f = true) :
    (mutateOne lib config f).All fun result =>
      Change config f result.1 ∧ result.2 ≠ .wrongLength := by
  have hscalar (overflow : Bool) (kind : MutationKind) (hkind : kind ≠ .wrongLength)
      (hf : GeneratorConfig.isScalar f = true ∨ (∃ value, f = .boolean value) ∨
        ∃ parts, f = .inline parts) :
      ((fun g => (g, kind)) <$> config.generator.mutateScalar lib overflow f).All fun result =>
        Change config f result.1 ∧ result.2 ≠ .wrongLength := by
    rw [Draw.all_map]
    exact Draw.all_mono (config.generator.all_mutateScalar overflow hf) fun g hg =>
      ⟨⟨h, hg⟩, hkind⟩
  unfold mutateOne
  by_cases hoverflow : config.mode = .overflow
  · rw [if_pos hoverflow]
    split
    · rename_i hf
      exact hscalar true .overflowValue (by decide) (.inl hf)
    · rename_i hf
      refine ⟨⟨h, ?_⟩, by decide⟩
      rintro rfl
      exact hf rfl
  · rw [if_neg hoverflow]
    have hmutate := hmode.resolve_right hoverflow
    cases hstrategy : config.strategy with
    | preserve =>
        apply hscalar false .randomValue (by decide)
        rcases scalar_of_eligible hstrategy h with hf | ⟨-, hf⟩
        · exact .inl hf
        · exact .inr hf
    | replace =>
        rw [Draw.all_map]
        have hkind : MutationKind.randomFrame ≠ .wrongLength := by decide
        exact Draw.Safe.all config.generator.safe_frame fun g =>
          ⟨⟨h, replaceFrame_ne f g⟩, hkind⟩

/-! ## Relations kept by a walk -/

/-- Children that a walk relates to the old ones, with their logs one after another. -/
inductive WalkList (R : List Step → Frame → Frame → List AppliedMutation → Prop)
    (before : List Step) : List (Step × Frame) → List Frame → List AppliedMutation → Prop where
  | nil : WalkList R before [] [] []
  | cons {b : Step × Frame} {bs : List (Step × Frame)} {g : Frame} {gs : List Frame}
      {log logs : List AppliedMutation} :
      R (before ++ [b.1]) b.2 g log → WalkList R before bs gs logs →
      WalkList R before (b :: bs) (g :: gs) (log ++ logs)

theorem WalkList.length_eq {R : List Step → Frame → Frame → List AppliedMutation → Prop}
    {before : List Step} {bs : List (Step × Frame)} {gs : List Frame}
    {log : List AppliedMutation} (h : WalkList R before bs gs log) : gs.length = bs.length := by
  induction h with
  | nil => rfl
  | cons _ _ ih => exact congrArg (· + 1) ih

/-- A relation between a tree, what is made of it below a position and the log.  It holds of
one changed frame and of related children under the same head. -/
structure WalkRule (lib : Externals) (config : EvilConfig) (P : Frame → Prop)
    (R : List Step → Frame → Frame → List AppliedMutation → Prop) : Prop where
  child : ∀ {f c : Frame}, P f → c ∈ f.children → P c
  here : ∀ {before : List Step} {f : Frame}, P f → eligible config f = true →
    (mutateOne lib config f).All fun result =>
      R before f result.1 [{ path := pathText before, kind := result.2 }]
  below : ∀ {before : List Step} {f : Frame} {children : List Frame}
    {log : List AppliedMutation}, P f → WalkList R before f.branches children log →
    R before f (f.rebuild children) log

theorem all_frameApplies (maxDepth : Nat) (f : Frame) (depth : Nat) :
    (frameApplies config maxDepth f depth).All fun applies =>
      applies = true → eligible config f = true := by
  unfold frameApplies
  split
  · rename_i h
    exact (safe_shouldApply _).all fun _ _ => h
  · simp

/-- The log of a walk with a cumulative weight. -/
def Selection.log : Selection → List AppliedMutation
  | .passed _ => []
  | .hit mutation => [mutation]

namespace WalkRule

variable {P : Frame → Prop} {R : List Step → Frame → Frame → List AppliedMutation → Prop}

theorem refl_of {before : List Step} {bs : List (Step × Frame)}
    (h : ∀ b ∈ bs, R (before ++ [b.1]) b.2 b.2 []) :
    WalkList R before bs (bs.map Prod.snd) [] := by
  induction bs with
  | nil => exact .nil
  | cons b bs ih =>
      obtain ⟨hb, hbs⟩ := List.forall_mem_cons.mp h
      exact WalkList.cons hb (ih hbs)

/-- A tree is related to itself. -/
theorem refl (rule : WalkRule lib config P R) {f : Frame} (hf : P f) (before : List Step) :
    R before f f [] := by
  induction f using Frame.childInduction generalizing before with
  | step f ih =>
      have hchildren : WalkList R before f.branches (f.branches.map Prod.snd) [] := by
        refine refl_of fun b hb => ?_
        have hc := Frame.mem_children_of_mem_branches hb
        exact ih b.2 hc (rule.child hf hc) _
      have hbelow := rule.below hf hchildren
      rwa [Frame.branches_snd, Frame.rebuild_children] at hbelow

theorem walkBranches {before : List Step}
    (walk : Step × Frame → String → Draw (Frame × List AppliedMutation)) {bs : List (Step × Frame)}
    (h : ∀ b ∈ bs, (walk b (pathText (before ++ [b.1]))).All fun result =>
      R (before ++ [b.1]) b.2 result.1 result.2) :
    (EvilResp.walkBranches (pathText before) (bs.map fun b => (b.1, walk b))).All fun result =>
      WalkList R before bs result.1 result.2 := by
  induction bs with
  | nil => exact WalkList.nil
  | cons b bs ih =>
      obtain ⟨hb, hbs⟩ := List.forall_mem_cons.mp h
      rw [pathText_snoc] at hb
      rw [List.map_cons, EvilResp.walkBranches, Draw.all_bind]
      refine Draw.all_mono hb fun first hfirst => ?_
      rw [Draw.all_bind]
      exact Draw.all_mono (ih hbs) fun rest hrest => .cons hfirst hrest

/-- A walk over all frames keeps the relation. -/
theorem mutateFrame (rule : WalkRule lib config P R) (maxDepth : Nat) {f : Frame} (hf : P f) :
    ∀ depth before, (mutateFrame lib config maxDepth f depth (pathText before)).All fun result =>
      R before f result.1 result.2 := by
  induction f using Frame.childInduction with
  | step f ih =>
      intro depth before
      rw [mutateFrame_eq, Draw.all_bind]
      refine Draw.all_mono (all_frameApplies maxDepth f depth) fun applies happlies => ?_
      cases applies with
      | true =>
          rw [if_pos rfl, Draw.all_bind]
          exact Draw.all_mono (rule.here hf (happlies rfl)) fun result hresult => hresult
      | false =>
          rw [if_neg (by decide), Draw.all_bind]
          have hchild : ∀ b ∈ f.branches,
              (EvilResp.mutateFrame lib config maxDepth b.2 (depth + 1)
                (pathText (before ++ [b.1]))).All
                  fun result => R (before ++ [b.1]) b.2 result.1 result.2 := by
            intro b hb
            have hc := Frame.mem_children_of_mem_branches hb
            exact ih b.2 hc (rule.child hf hc) (depth + 1) _
          exact Draw.all_mono (walkBranches _ hchild) fun result hresult => rule.below hf hresult

theorem selectBranches (rule : WalkRule lib config P R) {before : List Step}
    (walk : Step × Frame → String → Nat → Draw (Frame × Selection)) {bs : List (Step × Frame)}
    (h : ∀ b ∈ bs, ∀ remaining, (walk b (pathText (before ++ [b.1])) remaining).All fun result =>
      R (before ++ [b.1]) b.2 result.1 result.2.log) (hP : ∀ b ∈ bs, P b.2) :
    ∀ remaining, (EvilResp.selectBranches (pathText before) (bs.map fun b => (b.1, b.2, walk b))
      remaining).All fun result => WalkList R before bs result.1 result.2.log := by
  induction bs with
  | nil =>
      intro remaining
      exact WalkList.nil
  | cons b bs ih =>
      intro remaining
      obtain ⟨hb, hbs⟩ := List.forall_mem_cons.mp h
      obtain ⟨hPb, hPbs⟩ := List.forall_mem_cons.mp hP
      have hfirst := hb remaining
      rw [pathText_snoc] at hfirst
      rw [List.map_cons, EvilResp.selectBranches, Draw.all_bind]
      refine Draw.all_mono hfirst fun result hresult => ?_
      obtain ⟨child, selection⟩ := result
      cases selection with
      | hit m =>
          have hrest : (bs.map fun b => (b.1, b.2, walk b)).map (fun branch => branch.2.1) =
              bs.map Prod.snd := by
            rw [List.map_map]
            rfl
          have hkept : WalkList R before bs (bs.map Prod.snd) [] :=
            refl_of fun b hb => rule.refl (hPbs b hb) _
          dsimp only
          rw [hrest]
          exact WalkList.cons hresult hkept
      | passed rest =>
          dsimp only
          rw [Draw.all_bind]
          exact Draw.all_mono (ih hbs hPbs rest) fun result' hresult' =>
            WalkList.cons (rule.refl hPb _) hresult'

/-- A walk with a cumulative weight keeps the relation. -/
theorem mutateSelected (rule : WalkRule lib config P R) {f : Frame} (hf : P f) :
    ∀ depth before remaining,
      (mutateSelected lib config f depth (pathText before) remaining).All fun result =>
        R before f result.1 result.2.log := by
  induction f using Frame.childInduction with
  | step f ih =>
      intro depth before remaining
      rw [mutateSelected_eq]
      by_cases hhit : eligible config f ∧ remaining < config.depth.weight depth
      · rw [if_pos hhit, Draw.all_bind]
        exact Draw.all_mono (rule.here hf hhit.1) fun result hresult => hresult
      · rw [if_neg hhit, Draw.all_bind]
        have hP : ∀ b ∈ f.branches, P b.2 := fun b hb =>
          rule.child hf (Frame.mem_children_of_mem_branches hb)
        have hchild : ∀ b ∈ f.branches, ∀ remaining,
            (EvilResp.mutateSelected lib config b.2 (depth + 1) (pathText (before ++ [b.1]))
              remaining).All fun result => R (before ++ [b.1]) b.2 result.1 result.2.log :=
          fun b hb => ih b.2 (Frame.mem_children_of_mem_branches hb) (hP b hb) (depth + 1) _
        have hwalk := rule.selectBranches _ hchild hP (remaining - frameWeight config f depth)
        exact Draw.all_mono hwalk fun result hresult => rule.below hf hresult

end WalkRule

/-! ## The tree is edited at the logged positions -/

/-- A log of changes below a position: one entry for each changed position, under its
path. -/
def Logged (before : List Step) (log : List AppliedMutation) (ps : List (List Step)) : Prop :=
  log.map AppliedMutation.path = ps.map (fun p => pathText (before ++ p)) ∧
    ∀ m ∈ log, m.kind ≠ .wrongLength

theorem Logged.nil (before : List Step) : Logged before [] [] :=
  ⟨rfl, by simp⟩

theorem Logged.cons {before : List Step} {step : Step} {log logs : List AppliedMutation}
    {ps qs : List (List Step)} (h : Logged (before ++ [step]) log ps)
    (hs : Logged before logs qs) : Logged before (log ++ logs) (ps.map (step :: ·) ++ qs) := by
  constructor
  · rw [List.map_append, List.map_append, h.1, hs.1, List.map_map]
    simp [Function.comp_def]
  · intro m hm
    rcases List.mem_append.mp hm with hm | hm
    · exact h.2 m hm
    · exact hs.2 m hm

/-- The edits of one tree and the log about them. -/
def Edits (config : EvilConfig) (before : List Step) (f g : Frame) (log : List AppliedMutation) :
    Prop :=
  ∃ ps, Logged before log ps ∧ Tree.Edited Frame.branches Frame.SameShell (Change config) f g ps

theorem Edits.here {before : List Step} {f g : Frame} {kind : MutationKind}
    (h : Change config f g) (hkind : kind ≠ .wrongLength) :
    Edits config before f g [{ path := pathText before, kind }] := by
  refine ⟨[[]], ⟨by simp, ?_⟩, Tree.Edited.here h⟩
  intro m hm
  obtain rfl := List.mem_singleton.mp hm
  exact hkind

theorem Edits.refl (before : List Step) (f : Frame) : Edits config before f f [] :=
  ⟨[], Logged.nil before, Tree.Edited.refl Frame.SameShell.refl f⟩

/-- The edits of a list of children and the log about them. -/
def EditsList (config : EvilConfig) (before : List Step) (bs : List (Step × Frame))
    (children : List Frame) (log : List AppliedMutation) : Prop :=
  children.length = bs.length ∧ ∃ ps, Logged before log ps ∧
    Tree.EditedList Frame.branches Frame.SameShell (Change config) bs
      ((bs.map Prod.fst).zip children) ps

theorem EditsList.nil (before : List Step) : EditsList config before [] [] [] :=
  ⟨rfl, [], Logged.nil before, .nil⟩

theorem EditsList.cons {before : List Step} {b : Step × Frame} {bs : List (Step × Frame)}
    {child : Frame} {children : List Frame} {log logs : List AppliedMutation}
    (h : Edits config (before ++ [b.1]) b.2 child log)
    (hs : EditsList config before bs children logs) :
    EditsList config before (b :: bs) (child :: children) (log ++ logs) := by
  obtain ⟨ps, hlog, hedit⟩ := h
  obtain ⟨hlength, qs, hlogs, hedits⟩ := hs
  exact ⟨by simp [hlength], _, hlog.cons hlogs, .cons hedit hedits⟩

theorem EditsList.refl (before : List Step) (bs : List (Step × Frame)) :
    EditsList config before bs (bs.map Prod.snd) [] := by
  induction bs with
  | nil => exact .nil before
  | cons b bs ih => exact .cons (.refl _ b.2) ih

/-- Edits of the children are edits of the frame. -/
theorem Edits.below {before : List Step} {f : Frame} {children : List Frame}
    {log : List AppliedMutation} (h : EditsList config before f.branches children log) :
    Edits config before f (f.rebuild children) log := by
  obtain ⟨hlength, ps, hlog, hedits⟩ := h
  have hchildren : children.length = f.children.length := by
    rw [hlength, ← Frame.branches_snd, List.length_map]
  refine ⟨ps, hlog, Tree.Edited.below (Frame.sameShell_rebuild hchildren) f.steps_nodup ?_⟩
  rw [Frame.branches_rebuild hchildren]
  exact hedits

theorem WalkList.edits {before : List Step} {bs : List (Step × Frame)} {children : List Frame}
    {log : List AppliedMutation} (h : WalkList (Edits config) before bs children log) :
    EditsList config before bs children log := by
  induction h with
  | nil => exact .nil before
  | cons hfirst _ ih => exact .cons hfirst ih

/-- A walk over all frames edits the tree exactly at the logged positions. -/
theorem all_mutateFrame (hmode : config.mode = .mutate ∨ config.mode = .overflow)
    (maxDepth : Nat) (f : Frame) :
    ∀ depth before, (mutateFrame lib config maxDepth f depth (pathText before)).All fun result =>
      Edits config before f result.1 result.2 := by
  have hrule : WalkRule lib config (fun _ => True) (Edits config) := by
    constructor
    · exact fun _ _ => trivial
    · intro before f _ h
      exact Draw.all_mono (all_mutateOne hmode h) fun result hresult => .here hresult.1 hresult.2
    · exact fun _ hlist => .below hlist.edits
  exact fun depth before => hrule.mutateFrame maxDepth trivial depth before

/-! ## A selected weight -/

/-- A walk with a cumulative weight passes a whole tree, or edits one frame of it. -/
def Selects (config : EvilConfig) (before : List Step) (f : Frame) (depth remaining : Nat)
    (result : Frame × Selection) : Prop :=
  match result.2 with
  | .passed rest => result.1 = f ∧ remaining = eligibleWeight config f depth + rest
  | .hit m =>
      remaining < eligibleWeight config f depth ∧ Edits config before f result.1 [m]

/-- The total weight of a list of children. -/
def branchWeight (config : EvilConfig) (bs : List (Step × Frame)) (depth : Nat) : Nat :=
  (bs.map fun b => eligibleWeight config b.2 depth).sum

/-- The same of a list of children. -/
def SelectsList (config : EvilConfig) (before : List Step) (bs : List (Step × Frame))
    (depth remaining : Nat) (result : List Frame × Selection) : Prop :=
  match result.2 with
  | .passed rest => result.1 = bs.map Prod.snd ∧ remaining = branchWeight config bs depth + rest
  | .hit m => remaining < branchWeight config bs depth ∧ EditsList config before bs result.1 [m]

theorem all_selectBranches {before : List Step} {depth : Nat}
    {walk : Step × Frame → String → Nat → Draw (Frame × Selection)} {bs : List (Step × Frame)}
    (h : ∀ b ∈ bs, ∀ remaining, (walk b (pathText (before ++ [b.1])) remaining).All
      (Selects config (before ++ [b.1]) b.2 depth remaining)) :
    ∀ remaining, (selectBranches (pathText before) (bs.map fun b => (b.1, b.2, walk b))
      remaining).All (SelectsList config before bs depth remaining) := by
  induction bs with
  | nil =>
      intro remaining
      exact ⟨rfl, (Nat.zero_add remaining).symm⟩
  | cons b bs ih =>
      intro remaining
      obtain ⟨hb, hbs⟩ := List.forall_mem_cons.mp h
      have hweight : branchWeight config (b :: bs) depth =
          eligibleWeight config b.2 depth + branchWeight config bs depth := by
        simp [branchWeight]
      have hfirst := hb remaining
      rw [pathText_snoc] at hfirst
      rw [List.map_cons, selectBranches, Draw.all_bind]
      refine Draw.all_mono hfirst fun result hresult => ?_
      obtain ⟨child, selection⟩ := result
      cases selection with
      | hit m =>
          obtain ⟨hlt, hedits⟩ := hresult
          have hrest : (bs.map fun b => (b.1, b.2, walk b)).map (fun branch => branch.2.1) =
              bs.map Prod.snd := by
            rw [List.map_map]
            rfl
          refine ⟨by rw [hweight]; omega, ?_⟩
          rw [hrest]
          exact EditsList.cons hedits (EditsList.refl before bs)
      | passed rest =>
          obtain ⟨-, hpassed⟩ := hresult
          dsimp only
          rw [Draw.all_bind]
          refine Draw.all_mono (ih hbs rest) fun result' hresult' => ?_
          obtain ⟨children, selection'⟩ := result'
          cases selection' with
          | hit m =>
              obtain ⟨hlt, hedits⟩ := hresult'
              refine ⟨by rw [hweight]; omega, ?_⟩
              exact EditsList.cons (Edits.refl _ b.2) hedits
          | passed last =>
              obtain ⟨hchildren, hlast⟩ := hresult'
              refine ⟨?_, by rw [hweight]; omega⟩
              rw [List.map_cons]
              exact congrArg (b.2 :: ·) hchildren

/-- A selected weight edits exactly one frame, as long as it is below the total. -/
theorem all_mutateSelected (hmode : config.mode = .mutate ∨ config.mode = .overflow)
    (f : Frame) :
    ∀ depth before remaining,
      (mutateSelected lib config f depth (pathText before) remaining).All
        (Selects config before f depth remaining) := by
  induction f using Frame.childInduction with
  | step f ih =>
      intro depth before remaining
      have htotal : eligibleWeight config f depth =
          frameWeight config f depth + branchWeight config f.branches (depth + 1) :=
        eligibleWeight_eq config f depth
      rw [mutateSelected_eq]
      by_cases hhit : eligible config f ∧ remaining < config.depth.weight depth
      · obtain ⟨heligible, hlt⟩ := hhit
        rw [if_pos ⟨heligible, hlt⟩, Draw.all_bind]
        refine Draw.all_mono (all_mutateOne hmode heligible) fun result hresult => ?_
        refine ⟨?_, .here hresult.1 hresult.2⟩
        have hself : frameWeight config f depth = config.depth.weight depth := if_pos heligible
        omega
      · have hpassed : frameWeight config f depth ≤ remaining := by
          unfold frameWeight
          split
          · rename_i heligible
            exact not_lt.mp fun hlt => hhit ⟨heligible, hlt⟩
          · exact Nat.zero_le _
        have hbranches : (selectBranches (pathText before)
            (f.branches.map fun b => (b.1, b.2, mutateSelected lib config b.2 (depth + 1)))
            (remaining - frameWeight config f depth)).All
              (SelectsList config before f.branches (depth + 1)
                (remaining - frameWeight config f depth)) :=
          all_selectBranches
            (fun b hb => ih b.2 (Frame.mem_children_of_mem_branches hb) (depth + 1) _) _
        rw [if_neg hhit, Draw.all_bind]
        refine Draw.all_mono hbranches fun result hresult => ?_
        obtain ⟨children, selection⟩ := result
        cases selection with
        | hit m =>
            obtain ⟨hlt, hedits⟩ := hresult
            exact ⟨by omega, .below hedits⟩
        | passed rest =>
            obtain ⟨hchildren, hrest⟩ := hresult
            refine ⟨?_, by omega⟩
            have hsame : children = f.children := hchildren.trans f.branches_snd
            rw [hsame]
            exact f.rebuild_children

/-! ## Eligible frames are found -/

/-- An eligible frame at some level of the tree. -/
def EligibleAt (config : EvilConfig) (f : Frame) (level : Nat) : Prop :=
  ∃ p g, f.at? p = some g ∧ eligible config g = true ∧ p.length = level

theorem eligibleAt_iff {f : Frame} {level : Nat} :
    EligibleAt config f level ↔ (eligible config f = true ∧ level = 0) ∨
      ∃ b ∈ f.branches, ∃ below, EligibleAt config b.2 below ∧ level = below + 1 := by
  constructor
  · rintro ⟨p, g, hp, hg, hlength⟩
    cases p with
    | nil =>
        obtain rfl := Option.some.inj hp
        exact .inl ⟨hg, hlength.symm⟩
    | cons step p =>
        obtain ⟨c, hlookup, hp⟩ := Option.bind_eq_some_iff.mp hp
        exact .inr ⟨(step, c), Frame.mem_branches_iff.mpr hlookup, p.length,
          ⟨p, g, hp, hg, rfl⟩, hlength.symm⟩
  · rintro (⟨hf, rfl⟩ | ⟨⟨step, c⟩, hb, below, ⟨p, g, hp, hg, rfl⟩, rfl⟩)
    · exact ⟨[], f, rfl, hf, rfl⟩
    · refine ⟨step :: p, g, ?_, hg, rfl⟩
      rw [Frame.at?, Tree.at?, Frame.mem_branches_iff.mp hb]
      exact hp

/-- An eligible frame gives the tree a weight. -/
theorem eligibleWeight_pos {f : Frame} :
    ∀ {depth level}, EligibleAt config f level → 0 < eligibleWeight config f depth := by
  induction f using Frame.childInduction with
  | step f ih =>
      intro depth level h
      rw [eligibleWeight_eq]
      rcases eligibleAt_iff.mp h with ⟨hf, -⟩ | ⟨b, hb, below, hbelow, -⟩
      · have hself : frameWeight config f depth = config.depth.weight depth := if_pos hf
        have := weight_pos config.depth depth
        omega
      · have hchild : 0 < eligibleWeight config b.2 (depth + 1) :=
          ih b.2 (Frame.mem_children_of_mem_branches hb) hbelow
        have hle := List.single_le_sum (fun _ _ => Nat.zero_le _) _
          (List.mem_map_of_mem (f := fun b => eligibleWeight config b.2 (depth + 1)) hb)
        omega

theorem foldl_max_eq_none {l : List (Option Nat)} {start : Option Nat} :
    l.foldl max start = none ↔ start = none ∧ ∀ o ∈ l, o = none := by
  induction l generalizing start with
  | nil => simp
  | cons o l ih =>
      rw [List.foldl_cons, ih]
      cases start <;> cases o <;> simp

theorem foldl_max_eq_some {l : List (Option Nat)} {start : Option Nat} {n : Nat}
    (h : l.foldl max start = some n) : start = some n ∨ some n ∈ l := by
  induction l generalizing start with
  | nil => exact .inl h
  | cons o l ih =>
      rcases ih h with hmax | hmem
      · cases start with
        | none => exact .inr (by simp [← hmax])
        | some a =>
            cases o with
            | none => exact .inl (by simpa using hmax)
            | some b =>
                have hchoice : max a b = n := by simpa using hmax
                rcases max_choice a b with ha | hb
                · exact .inl (congrArg some (ha.symm.trans hchoice))
                · exact .inr (by simp [← hchoice, hb])
      · exact .inr (List.mem_cons_of_mem _ hmem)

/-- The deepest eligible level is the level of an eligible frame, and there is one as
soon as there is an eligible frame. -/
theorem eligibleMaxDepth_spec {f : Frame} :
    ∀ {depth}, (∀ n, eligibleMaxDepth config f depth = some n →
        ∃ level, EligibleAt config f level ∧ n = depth + level) ∧
      (eligibleMaxDepth config f depth = none → ∀ level, ¬ EligibleAt config f level) := by
  induction f using Frame.childInduction with
  | step f ih =>
      intro depth
      rw [eligibleMaxDepth_eq]
      constructor
      · intro n hn
        rcases foldl_max_eq_some hn with hself | hmem
        · split at hself
          · rename_i hf
            obtain rfl := Option.some.inj hself
            exact ⟨0, eligibleAt_iff.mpr (.inl ⟨hf, rfl⟩), rfl⟩
          · cases hself
        · obtain ⟨b, hb, hdepth⟩ := List.mem_map.mp hmem
          obtain ⟨level, hlevel, rfl⟩ :=
            (ih b.2 (Frame.mem_children_of_mem_branches hb)).1 n hdepth
          exact ⟨level + 1, eligibleAt_iff.mpr (.inr ⟨b, hb, level, hlevel, rfl⟩), by omega⟩
      · intro hnone level hlevel
        obtain ⟨hself, hbranches⟩ := foldl_max_eq_none.mp hnone
        rcases eligibleAt_iff.mp hlevel with ⟨hf, -⟩ | ⟨b, hb, below, hbelow, -⟩
        · rw [if_pos hf] at hself
          cases hself
        · have hb' := hbranches _
            (List.mem_map_of_mem (f := fun b => eligibleMaxDepth config b.2 (depth + 1)) hb)
          exact (ih b.2 (Frame.mem_children_of_mem_branches hb)).2 hb' below hbelow

theorem safe_walkBranches {path : String}
    {walk : Step × Frame → String → Draw (Frame × List AppliedMutation)}
    {bs : List (Step × Frame)} (h : ∀ b ∈ bs, (walk b (path ++ b.1.text)).Safe) :
    (walkBranches path (bs.map fun b => (b.1, walk b))).Safe := by
  induction bs with
  | nil => trivial
  | cons b bs ih =>
      obtain ⟨hb, hbs⟩ := List.forall_mem_cons.mp h
      rw [List.map_cons, walkBranches]
      exact Draw.safe_bind hb fun first => Draw.safe_bind (ih hbs) fun rest => trivial

/-- One child that logs something is enough. -/
theorem all_walkBranches_logs {path : String}
    {walk : Step × Frame → String → Draw (Frame × List AppliedMutation)}
    {bs : List (Step × Frame)} (h : ∀ b ∈ bs, (walk b (path ++ b.1.text)).Safe)
    (hlogs : ∃ b ∈ bs, (walk b (path ++ b.1.text)).All fun result => result.2 ≠ []) :
    (walkBranches path (bs.map fun b => (b.1, walk b))).All fun result => result.2 ≠ [] := by
  induction bs with
  | nil =>
      obtain ⟨b, hb, -⟩ := hlogs
      cases hb
  | cons b bs ih =>
      obtain ⟨hb, hbs⟩ := List.forall_mem_cons.mp h
      rw [List.map_cons, walkBranches, Draw.all_bind]
      obtain ⟨b', hb', hlog⟩ := hlogs
      rcases List.mem_cons.mp hb' with rfl | hb'
      · refine Draw.all_mono hlog fun first hfirst => ?_
        rw [Draw.all_bind]
        exact (safe_walkBranches hbs).all fun rest => by simp [hfirst]
      · refine hb.all fun first => ?_
        rw [Draw.all_bind]
        exact Draw.all_mono (ih hbs ⟨b', hb', hlog⟩) fun rest hrest => by simp [hrest]

theorem scale_hundred (mode : MutationDepth) (depth : Nat) :
    mode.scale .hundred depth depth = .hundred := by
  cases mode with
  | any => rfl
  | inner => simp [MutationDepth.scale, F64.divRat, F64.mulRat, F64.hundred]

/-- With full probability, a deepest eligible frame is reached unless something above
it was mutated. -/
theorem all_mutateFrame_logs (hmode : config.mode = .mutate ∨ config.mode = .overflow)
    (hprobability : config.probability = .hundred) {maxDepth : Nat} (f : Frame) :
    ∀ depth before level, EligibleAt config f level → depth + level = maxDepth →
      (mutateFrame lib config maxDepth f depth (pathText before)).All
        fun result => result.2 ≠ [] := by
  induction f using Frame.childInduction with
  | step f ih =>
      intro depth before level heligible hlevel
      have hhere (heligible : eligible config f = true) :
          (mutateOne lib config f >>= fun result =>
            (return (result.1, [{ path := pathText before, kind := result.2 }]) :
              Draw (Frame × List AppliedMutation))).All fun result => result.2 ≠ [] := by
        rw [Draw.all_bind]
        exact Draw.all_of_forall (all_mutateOne hmode heligible) fun result => by simp
      rw [mutateFrame_eq, Draw.all_bind]
      rcases eligibleAt_iff.mp heligible with ⟨hf, rfl⟩ | ⟨b, hb, below, hbelow, rfl⟩
      · obtain rfl : depth = maxDepth := hlevel
        have hsure : (frameApplies config depth f depth).All (· = true) := by
          rw [frameApplies, if_pos hf, hprobability, scale_hundred]
          exact all_shouldApply_hundred
        refine Draw.all_mono hsure fun applies happlies => ?_
        rw [if_pos happlies]
        exact hhere hf
      · refine Draw.all_mono (all_frameApplies maxDepth f depth) fun applies happlies => ?_
        cases applies with
        | true =>
            rw [if_pos rfl]
            exact hhere (happlies rfl)
        | false =>
            rw [if_neg (by decide), Draw.all_bind]
            have hlogs : (walkBranches (pathText before) (f.branches.map fun b =>
                (b.1, mutateFrame lib config maxDepth b.2 (depth + 1)))).All
                  fun result => result.2 ≠ [] := by
              refine all_walkBranches_logs ?_ ⟨b, hb, ?_⟩
              · intro c _
                rw [← pathText_snoc]
                exact Draw.all_of_forall (all_mutateFrame hmode maxDepth c.2 (depth + 1) _)
                  fun _ => trivial
              · rw [← pathText_snoc]
                exact ih b.2 (Frame.mem_children_of_mem_branches hb) (depth + 1) _ below hbelow
                  (by omega)
            exact Draw.all_mono hlogs fun result hresult => hresult

/-! ## Exact logs -/

/-- The bytes of a tree, with one header overwritten where the log ends in a fault. -/
def FaultExact (f : Frame) (fault : Option AppliedMutation) (bytes : Bytes) : Prop :=
  match fault with
  | none => bytes = f.encode
  | some record => Overwrites f record bytes

theorem Edits.nodup {f g : Frame} {log : List AppliedMutation} (h : Edits config [] f g log) :
    (log.map AppliedMutation.path).Nodup := by
  obtain ⟨ps, ⟨hpaths, -⟩, hedited⟩ := h
  have hpositions : ps.Nodup := by
    refine List.Pairwise.imp ?_ hedited.incomparable
    rintro p q hpq rfl
    exact hpq.1 (List.prefix_refl p)
  rw [hpaths]
  exact hpositions.map fun p q heq => pathText_injective heq

/-- A reply with the tree and the log it stands for. -/
structure ExactReply (config : EvilConfig) (f : Frame) (reply : MutatedReply) (g : Frame)
    (values : List AppliedMutation) (fault : Option AppliedMutation) : Prop where
  log : reply.mutations = values ++ fault.toList
  edits : Edits config [] f g values
  bytes : FaultExact g fault reply.bytes

theorem ExactReply.unchanged (f : Frame) :
    ExactReply config f { bytes := f.encode, mutations := [] } f [] none :=
  ⟨rfl, Edits.refl [] f, rfl⟩

theorem all_slotFault (config : EvilConfig) (f : Frame) :
    (slotFault config f).All fun reply =>
      ∀ r ∈ reply, ∃ record, r.mutations = [record] ∧ Overwrites f record r.bytes := by
  unfold slotFault
  split
  · exact all_mutateLength config f
  · simp

theorem all_selectWeight (f : Frame) :
    (selectWeight config f).All fun selected =>
      (∀ remaining ∈ selected, remaining < eligibleWeight config f 0) ∧
        (selected = none → eligibleWeight config f 0 = 0) := by
  unfold selectWeight
  simp only
  split
  · rename_i hzero
    exact ⟨by simp, fun _ => hzero⟩
  · rename_i hpositive
    rw [Draw.all_map]
    apply all_genRange (Nat.pos_of_ne_zero hpositive)
    intro n _ hn
    simpa using hn

/-- With one mutation, the log holds at most one entry, and a fault leaves the tree
as it was. -/
theorem all_mutateSingle (hmode : config.mode = .mutate ∨ config.mode = .overflow) (f : Frame) :
    (mutateSingle lib config f).All fun reply => ∃ g values fault,
      ExactReply config f reply g values fault ∧ reply.mutations.length ≤ 1 ∧
        (fault ≠ none → g = f) ∧
        (config.probability = .hundred → (∃ level, EligibleAt config f level) → fault = none →
          reply.mutations.length = 1) := by
  unfold mutateSingle
  rw [Draw.all_bind]
  refine Draw.all_mono (all_slotFault config f) fun fault hfault => ?_
  cases fault with
  | some reply =>
      obtain ⟨record, hlog, hbytes⟩ := hfault reply rfl
      refine ⟨f, [], some record, ⟨hlog, Edits.refl [] f, hbytes⟩, ?_, fun _ => rfl, ?_⟩
      · rw [hlog]
        rfl
      · intro _ _ h
        cases h
  | none =>
      dsimp only
      rw [Draw.all_bind]
      have happly : (shouldApply config.probability).All fun applies =>
          config.probability = .hundred → applies = true := by
        by_cases hprobability : config.probability = .hundred
        · rw [hprobability]
          exact Draw.all_mono all_shouldApply_hundred fun applies h _ => h
        · exact (safe_shouldApply _).all fun applies h => absurd h hprobability
      refine Draw.all_mono happly fun applies happlies => ?_
      cases applies with
      | false =>
          refine ⟨f, [], none, ExactReply.unchanged f, Nat.zero_le 1, fun _ => rfl, ?_⟩
          intro hprobability
          cases happlies hprobability
      | true =>
          rw [if_neg (by decide), Draw.all_bind]
          refine Draw.all_mono (all_selectWeight f) fun selected hselected => ?_
          obtain ⟨hbelow, hzero⟩ := hselected
          cases selected with
          | none =>
              refine ⟨f, [], none, ExactReply.unchanged f, Nat.zero_le 1, fun _ => rfl, ?_⟩
              rintro - ⟨level, hlevel⟩ -
              have hpositive : 0 < eligibleWeight config f 0 := eligibleWeight_pos hlevel
              rw [hzero rfl] at hpositive
              cases hpositive
          | some remaining =>
              have hroot : pathText [] = "root" := rfl
              dsimp only
              rw [Draw.all_bind, ← hroot]
              refine Draw.all_mono (all_mutateSelected hmode f 0 [] remaining)
                fun result hresult => ?_
              obtain ⟨g, selection⟩ := result
              cases selection with
              | hit m =>
                  obtain ⟨-, hedits⟩ := hresult
                  exact ⟨g, [m], none, ⟨rfl, hedits, rfl⟩, le_rfl, fun h => absurd rfl h,
                    fun _ _ _ => rfl⟩
              | passed rest =>
                  -- The drawn weight is below the total, so some frame is hit.
                  obtain ⟨-, hrest⟩ := hresult
                  have hlt := hbelow remaining rfl
                  omega

/-- With many mutations, full probability logs at least one value mutation. -/
theorem all_mutateMany (hmode : config.mode = .mutate ∨ config.mode = .overflow) (f : Frame) :
    (mutateMany lib config f).All fun reply => ∃ g values fault,
      ExactReply config f reply g values fault ∧
        (config.probability = .hundred → (∃ level, EligibleAt config f level) → values ≠ []) := by
  unfold mutateMany
  have hroot : pathText [] = "root" := rfl
  have hwalk : (mutateFrame lib config ((eligibleMaxDepth config f 0).getD 0) f 0 "root").All
      fun result => Edits config [] f result.1 result.2 ∧
        (config.probability = .hundred → (∃ level, EligibleAt config f level) →
          result.2 ≠ []) := by
    rw [← hroot]
    refine Draw.all_and (all_mutateFrame hmode _ f 0 []) ?_
    by_cases hfull : config.probability = .hundred ∧ ∃ level, EligibleAt config f level
    · obtain ⟨hprobability, level, hlevel⟩ := hfull
      cases hdepth : eligibleMaxDepth config f 0 with
      | none => exact absurd hlevel (eligibleMaxDepth_spec.2 hdepth level)
      | some n =>
          obtain ⟨deepest, hdeepest, rfl⟩ := eligibleMaxDepth_spec.1 n hdepth
          exact Draw.all_mono
            (all_mutateFrame_logs hmode hprobability f 0 [] deepest hdeepest rfl)
            fun _ h _ _ => h
    · exact Draw.all_of_forall (all_mutateFrame hmode _ f 0 [])
        fun _ hprobability hlevel => absurd ⟨hprobability, hlevel⟩ hfull
  rw [Draw.all_bind]
  refine Draw.all_mono hwalk fun result hresult => ?_
  obtain ⟨g, values⟩ := result
  obtain ⟨hedits, hlogs⟩ := hresult
  dsimp only
  rw [Draw.all_bind]
  refine Draw.all_mono (all_mutateLength config g) fun fault hfault => ?_
  cases fault with
  | none => exact ⟨g, values, none, ⟨by simp, hedits, rfl⟩, hlogs⟩
  | some reply =>
      obtain ⟨record, hlog, hbytes⟩ := hfault reply rfl
      refine ⟨g, values, some record, ⟨?_, hedits, hbytes⟩, hlogs⟩
      simp [hlog]

/-- The log of a mutated reply is exact.  The bytes are those of an edited tree, up to
one overwritten header where the log ends in a length fault; the value entries name
different frames, none above another, whose subtrees changed; everything else is as
it was. -/
theorem all_mutate (lib : Externals) (config : EvilConfig)
    (hmode : config.mode = .mutate ∨ config.mode = .overflow) (f : Frame) :
    (mutate lib config f).All fun reply => ∃ g values fault,
      ExactReply config f reply g values fault ∧ (values.map AppliedMutation.path).Nodup ∧
        (config.mutationCount = .one →
          reply.mutations.length ≤ 1 ∧ (fault ≠ none → g = f)) ∧
        (config.probability = .hundred → (∃ level, EligibleAt config f level) →
          (config.mutationCount = .one → fault = none → reply.mutations.length = 1) ∧
            (config.mutationCount = .many → values ≠ [])) := by
  have hactive : ¬ (config.mode ≠ .mutate ∧ config.mode ≠ .overflow) := fun h =>
    hmode.elim h.1 h.2
  rw [mutate, if_neg hactive]
  cases hcount : config.mutationCount with
  | one =>
      refine Draw.all_mono (all_mutateSingle hmode f) fun reply hreply => ?_
      obtain ⟨g, values, fault, hexact, hlength, hfault, hfull⟩ := hreply
      refine ⟨g, values, fault, hexact, hexact.edits.nodup, fun _ => ⟨hlength, hfault⟩, ?_⟩
      intro hprobability hlevel
      exact ⟨fun _ => hfull hprobability hlevel, fun h => nomatch h⟩
  | many =>
      refine Draw.all_mono (all_mutateMany hmode f) fun reply hreply => ?_
      obtain ⟨g, values, fault, hexact, hfull⟩ := hreply
      refine ⟨g, values, fault, hexact, hexact.edits.nodup, fun h => (nomatch h), ?_⟩
      intro hprobability hlevel
      exact ⟨fun h => (nomatch h), fun _ => hfull hprobability hlevel⟩

/-- A boolean that is the whole reply, mutated with full probability. -/
theorem all_mutate_boolean :
    (mutate { printable := fun _ => true, displayF64 := fun _ => "0",
              buildRegex := fun _ => .ok fun _ => true, hexEncode := fun _ => "", sha256 := id,
              blake3 := fun _ => "", tlsh := fun _ => "", chacha20 := fun _ _ => 0 }
      { mode := .mutate, probability := .hundred } (.boolean true)).All fun reply =>
        ∃ g values fault,
          ExactReply { mode := .mutate, probability := .hundred } (.boolean true) reply g values
            fault ∧ (values.map AppliedMutation.path).Nodup ∧
            (MutationCount.many = .one →
              reply.mutations.length ≤ 1 ∧ (fault ≠ none → g = .boolean true)) ∧
            (F64.hundred = .hundred →
              (∃ level, EligibleAt { mode := .mutate, probability := .hundred } (.boolean true)
                level) →
              (MutationCount.many = .one → fault = none → reply.mutations.length = 1) ∧
                (MutationCount.many = .many → values ≠ [])) :=
  all_mutate _ { mode := .mutate, probability := .hundred } (.inl rfl) (.boolean true)

/-! ## Replies without a length fault -/

/-- No length fault is made: framing is off, or its automatic fault has no place beside a
single mutation. -/
def EvilConfig.KeepsHeaders (config : EvilConfig) : Prop :=
  config.framing = .off ∨ config.framing = .auto ∧ config.mutationCount = .one

instance (config : EvilConfig) : Decidable config.KeepsHeaders := by
  unfold EvilConfig.KeepsHeaders
  infer_instance

/-- A length fault is in the log, and is only made where it is configured. -/
def LengthFaulted (config : EvilConfig) (reply : MutatedReply) : Prop :=
  ¬ config.KeepsHeaders ∧ reply.mutations ≠ []

/-- A reply has a length fault, or is a tree that a walk made, with its log. -/
def Walked (R : List Step → Frame → Frame → List AppliedMutation → Prop) (config : EvilConfig)
    (f : Frame) (reply : MutatedReply) : Prop :=
  LengthFaulted config reply ∨ ∃ g, reply.bytes = g.encode ∧ R [] f g reply.mutations

namespace WalkRule

variable {P : Frame → Prop} {R : List Step → Frame → Frame → List AppliedMutation → Prop}

theorem walked_mutateSingle (rule : WalkRule lib config P R) {f : Frame} (hf : P f) :
    (mutateSingle lib config f).All (Walked R config f) := by
  have hsame : Walked R config f { bytes := f.encode, mutations := [] } :=
    .inr ⟨f, rfl, rule.refl hf []⟩
  have hslot : (slotFault config f).All fun fault => ∀ reply ∈ fault, LengthFaulted config reply := by
    have hfaults := all_slotFault config f
    unfold slotFault at hfaults ⊢
    split at hfaults
    · rename_i length hframing
      apply Draw.all_mono hfaults
      intro fault hfault reply hreply
      obtain ⟨record, hlog, -⟩ := hfault reply hreply
      refine ⟨?_, by simp [hlog]⟩
      simp [EvilConfig.KeepsHeaders, hframing]
    · simp
  unfold mutateSingle
  rw [Draw.all_bind]
  apply Draw.all_mono hslot
  intro fault hfault
  cases fault with
  | some reply => exact .inl (hfault reply rfl)
  | none =>
      dsimp only
      rw [Draw.all_bind]
      apply (safe_shouldApply config.probability).all
      intro applies
      cases applies with
      | false => exact hsame
      | true =>
          rw [if_neg (by decide), Draw.all_bind]
          apply Draw.all_of_forall (all_selectWeight f)
          intro selected
          cases selected with
          | none => exact hsame
          | some remaining =>
              dsimp only
              rw [Draw.all_bind]
              apply Draw.all_mono (rule.mutateSelected hf 0 [] remaining)
              rintro ⟨g, selection⟩ hresult
              cases selection with
              | hit m => exact .inr ⟨g, rfl, hresult⟩
              | passed rest => exact .inr ⟨g, rfl, hresult⟩

theorem walked_mutateMany (rule : WalkRule lib config P R) {f : Frame} (hf : P f)
    (hcount : config.mutationCount = .many) : (mutateMany lib config f).All (Walked R config f) := by
  unfold mutateMany
  rw [Draw.all_bind]
  apply Draw.all_mono (rule.mutateFrame ((eligibleMaxDepth config f 0).getD 0) hf 0 [])
  rintro ⟨g, values⟩ hresult
  dsimp only
  rw [Draw.all_bind]
  have hfaults : (mutateLength config g).All fun fault =>
      ∀ reply ∈ fault, LengthFaulted config reply := by
    by_cases hframing : config.framing = .off
    · rw [mutateLength, hframing]
      simp
    · apply Draw.all_mono (all_mutateLength config g)
      intro fault hfault reply hreply
      obtain ⟨record, hlog, -⟩ := hfault reply hreply
      refine ⟨?_, by simp [hlog]⟩
      simp [EvilConfig.KeepsHeaders, hframing, hcount]
  apply Draw.all_mono hfaults
  intro fault hfault
  cases fault with
  | none => exact .inr ⟨g, rfl, hresult⟩
  | some reply =>
      obtain ⟨hframing, hlog⟩ := hfault reply rfl
      exact .inl ⟨hframing, by simp [hlog]⟩

/-- Whatever a walk keeps holds of a mutated reply, unless it has a length fault. -/
theorem walked_mutate (rule : WalkRule lib config P R) {f : Frame} (hf : P f) :
    (mutate lib config f).All (Walked R config f) := by
  unfold mutate
  split_ifs with hmode
  · exact .inr ⟨f, rfl, rule.refl hf []⟩
  · cases hcount : config.mutationCount with
    | one => exact rule.walked_mutateSingle hf
    | many => exact rule.walked_mutateMany hf hcount

end WalkRule

end EvilResp
