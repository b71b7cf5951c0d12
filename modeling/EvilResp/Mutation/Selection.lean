import EvilResp.Library.Weighted
import EvilResp.Mutation.Mutate
import EvilResp.Resp.Nodes

/-!
# Weighted selection

The frame that a drawn number selects.  The eligible frames of the tree, in wire order, own
consecutive intervals of numbers as long as their weights, and the walk changes the owner
of the number that was drawn.  The header of a length fault is chosen in the same way among
the frames with a length header.

Main results:

- Theorem {lit}`mutateSelected_eq_seek`: the walk through the tree is a walk through the
  list of eligible frames.
- Theorem {lit}`weightedHeader_eq_seek`: the same of the headers.
- Theorem {lit}`selection_exact`: every draw changes the owner of its number, and no sum of
  weights overflows.
-/

namespace EvilResp

open Library
open Library.Weighted (total Owns seek)
open EvilResp.Resp

/-! ## The eligible frames -/

/-- The eligible frames in wire order with their positions. -/
def eligibleNodes (config : EvilConfig) (f : Frame) : List (List Step × Frame) :=
  f.nodes.filter fun node => eligible config node.2

/-- The weight of a frame at a position below a level. -/
def nodeWeight (depth : MutationDepth) (level : Nat) (node : List Step × Frame) : Nat :=
  depth.weight (level + node.1.length)

variable {lib : Externals} {config : EvilConfig}

theorem eligibleNodes_eq (config : EvilConfig) (f : Frame) :
    eligibleNodes config f = (if eligible config f then [([], f)] else []) ++
      f.branches.flatMap fun b =>
        (eligibleNodes config b.2).map fun node => (b.1 :: node.1, node.2) := by
  have hbelow : ∀ b : Step × Frame,
      (b.2.nodes.map fun node => (b.1 :: node.1, node.2)).filter
        (fun node => eligible config node.2) =
      (eligibleNodes config b.2).map fun node => (b.1 :: node.1, node.2) := by
    intro b
    rw [List.filter_map]
    rfl
  rw [eligibleNodes, Frame.nodes_eq, List.filter_cons, List.filter_flatMap]
  simp only [hbelow]
  by_cases h : eligible config f = true
  · rw [if_pos h, if_pos h]
    rfl
  · rw [if_neg h, if_neg h]
    rfl

/-- One step down, the same frames weigh as much from one level below. -/
theorem nodeWeight_cons (depth : MutationDepth) (level : Nat) (step : Step)
    (node : List Step × Frame) :
    nodeWeight depth level (step :: node.1, node.2) = nodeWeight depth (level + 1) node := by
  have hlevel : level + (step :: node.1).length = level + 1 + node.1.length := by
    rw [List.length_cons]
    omega
  rw [nodeWeight, nodeWeight, hlevel]

/-- The total weight is the one of the list. -/
theorem eligibleWeight_eq_total (config : EvilConfig) (f : Frame) :
    ∀ level, eligibleWeight config f level =
      total (nodeWeight config.depth level) (eligibleNodes config f) := by
  induction f using Frame.childInduction with
  | step f ih =>
      intro level
      have hbranches : (f.branches.map fun b => eligibleWeight config b.2 (level + 1)).sum =
          total (nodeWeight config.depth level) (f.branches.flatMap fun b =>
            (eligibleNodes config b.2).map fun node => (b.1 :: node.1, node.2)) := by
        rw [Weighted.total_flatMap, total]
        refine congrArg List.sum (List.map_congr_left fun b hb => ?_)
        rw [ih b.2 (Frame.mem_children_of_mem_branches hb), Weighted.total_map]
        exact Weighted.total_congr fun node _ => (nodeWeight_cons _ _ _ _).symm
      rw [eligibleWeight_eq, eligibleNodes_eq, Weighted.total_append, hbranches]
      congr 1
      unfold frameWeight
      by_cases h : eligible config f = true
      · simp [h, nodeWeight]
      · simp [h]

/-! ## The walk -/

/-- Change one frame of the tree, and record its position. -/
def mutateAt (lib : Externals) (config : EvilConfig) (f : Frame) (before : List Step)
    (node : List Step × Frame) : Draw (Frame × Selection) := do
  let (replacement, kind) ← mutateOne lib config node.2
  return (f.replaceAt node.1 replacement, .hit { path := pathText (before ++ node.1), kind })

/-- What a walk does with a number: it changes the frame that was hit, or passes. -/
def seekOutcome (lib : Externals) (config : EvilConfig) (f : Frame) (before : List Step) :
    (List Step × Frame) ⊕ Nat → Draw (Frame × Selection) :=
  Sum.elim (mutateAt lib config f before) fun rest => return (f, .passed rest)

/-- The children of a list, one of which is walked below. -/
def childNodes (config : EvilConfig) (bs : List (Step × Frame)) : List (List Step × Frame) :=
  bs.flatMap fun b => (eligibleNodes config b.2).map fun node => (b.1 :: node.1, node.2)

theorem step_of_mem_childNodes {bs : List (Step × Frame)} {node : List Step × Frame}
    (h : node ∈ childNodes config bs) :
    ∃ step p, node.1 = step :: p ∧ step ∈ bs.map Prod.fst := by
  rcases List.mem_flatMap.mp h with ⟨b, hb, hmem⟩
  rcases List.mem_map.mp hmem with ⟨inner, -, rfl⟩
  exact ⟨b.1, inner.1, rfl, List.mem_map_of_mem hb⟩

/-- The walk looks below the first child before it goes on with the others. -/
theorem seek_childNodes_cons (level : Nat) (b : Step × Frame) (bs : List (Step × Frame)) (r : Nat) :
    seek (nodeWeight config.depth level) (childNodes config (b :: bs)) r =
      ((seek (nodeWeight config.depth (level + 1)) (eligibleNodes config b.2) r).map
        (fun node => (b.1 :: node.1, node.2)) id).elim .inl
          (seek (nodeWeight config.depth level) (childNodes config bs)) := by
  have hshift : seek (nodeWeight config.depth level)
      ((eligibleNodes config b.2).map fun node => (b.1 :: node.1, node.2)) r =
      (seek (nodeWeight config.depth (level + 1)) (eligibleNodes config b.2) r).map
        (fun node => (b.1 :: node.1, node.2)) id := by
    rw [Weighted.seek_map]
    simp only [nodeWeight_cons]
  rw [← hshift]
  exact Weighted.seek_append _ _ r

/-- A walk through children is a walk through the eligible frames below them. -/
theorem selectBranches_eq_seek (before : List Step) (level : Nat)
    (walk : Step × Frame → String → Nat → Draw (Frame × Selection)) {bs : List (Step × Frame)}
    (hnodup : (bs.map Prod.fst).Nodup)
    (h : ∀ b ∈ bs, ∀ r, walk b (pathText (before ++ [b.1])) r =
      seekOutcome lib config b.2 (before ++ [b.1])
        (seek (nodeWeight config.depth (level + 1)) (eligibleNodes config b.2) r)) :
    ∀ r,
      (∀ rest, seek (nodeWeight config.depth level) (childNodes config bs) r = .inr rest →
        selectBranches (pathText before) (bs.map fun b => (b.1, b.2, walk b)) r =
          return (bs.map Prod.snd, .passed rest)) ∧
      ∀ step p c,
        seek (nodeWeight config.depth level) (childNodes config bs) r = .inl (step :: p, c) →
        selectBranches (pathText before) (bs.map fun b => (b.1, b.2, walk b)) r = (do
          let (replacement, kind) ← mutateOne lib config c
          return (bs.map fun b => if b.1 = step then b.2.replaceAt p replacement else b.2,
            .hit { path := pathText (before ++ step :: p), kind })) := by
  induction bs with
  | nil =>
      intro r
      constructor
      · intro rest hseek
        cases hseek
        rfl
      · intro step p c hseek
        cases hseek
  | cons b bs ih =>
      intro r
      rcases List.forall_mem_cons.mp h with ⟨hb, hbs⟩
      rcases List.nodup_cons.mp hnodup with ⟨hfresh, hnodup⟩
      have hfirst := hb r
      rw [pathText_snoc] at hfirst
      rw [seek_childNodes_cons, List.map_cons, selectBranches, hfirst]
      cases hseek : seek (nodeWeight config.depth (level + 1)) (eligibleNodes config b.2) r with
      | inl node =>
          constructor
          · intro rest hrest
            cases hrest
          · intro step p c hhit
            cases hhit
            have hkept : (bs.map fun b => (b.1, b.2, walk b)).map (fun branch => branch.2.1) =
                bs.map Prod.snd := by
              rw [List.map_map]
              rfl
            have hothers : ∀ g : Frame,
                (bs.map fun d => if d.1 = b.1 then d.2.replaceAt node.1 g else d.2) =
                  bs.map Prod.snd :=
              fun g => Frame.map_if_ne hfresh fun c => c.replaceAt node.1 g
            simp only [seekOutcome, Sum.elim_inl, mutateAt, bind_assoc, pure_bind, hkept,
              List.map_cons, if_true, hothers, List.append_assoc, List.singleton_append]
      | inr rest =>
          rcases ih hnodup hbs rest with ⟨hpass, hhit⟩
          constructor
          · intro last hlast
            simp only [seekOutcome, Sum.elim_inr, pure_bind, hpass last hlast, List.map_cons]
          · intro step p c hstep
            have hne : b.1 ≠ step := by
              rintro rfl
              rcases step_of_mem_childNodes (Weighted.mem_of_seek hstep) with ⟨s, q, heq, hmem⟩
              obtain ⟨rfl, rfl⟩ := List.cons.inj heq
              exact hfresh hmem
            simp only [seekOutcome, Sum.elim_inr, pure_bind, hhit step p c hstep, bind_assoc,
              List.map_cons, if_neg hne]

/-- The walk through the tree is a walk through the list of its eligible frames. -/
theorem mutateSelected_eq_seek (lib : Externals) (config : EvilConfig) (f : Frame) :
    ∀ level before r, mutateSelected lib config f level (pathText before) r =
      seekOutcome lib config f before
        (seek (nodeWeight config.depth level) (eligibleNodes config f) r) := by
  induction f using Frame.childInduction with
  | step f ih =>
      intro level before r
      have hbranches := selectBranches_eq_seek before level
        (fun b => mutateSelected lib config b.2 (level + 1)) f.steps_nodup
        (fun b hb r => ih b.2 (Frame.mem_children_of_mem_branches hb) (level + 1) _ r)
        (r - frameWeight config f level)
      have hweight : nodeWeight config.depth level ([], f) = config.depth.weight level := rfl
      rw [mutateSelected_eq, eligibleNodes_eq]
      by_cases hhit : eligible config f ∧ r < config.depth.weight level
      · rw [if_pos hhit, if_pos hhit.1, List.singleton_append, seek, hweight, if_pos hhit.2]
        simp only [seekOutcome, Sum.elim_inl, mutateAt, Frame.replaceAt, List.append_nil]
      · -- Either the frame is not eligible, or the number is behind its interval.
        have hpass : seek (nodeWeight config.depth level)
            ((if eligible config f then [([], f)] else []) ++ childNodes config f.branches) r =
            seek (nodeWeight config.depth level) (childNodes config f.branches)
              (r - frameWeight config f level) := by
          unfold frameWeight
          by_cases heligible : eligible config f = true
          · rw [if_pos heligible, if_pos heligible, List.singleton_append, seek, hweight,
              if_neg fun hlt => hhit ⟨heligible, hlt⟩]
          · rw [if_neg heligible, if_neg heligible, List.nil_append, Nat.sub_zero]
        rw [if_neg hhit]
        refine Eq.trans ?_ (congrArg _ hpass.symm)
        cases hseek : seek (nodeWeight config.depth level) (childNodes config f.branches)
            (r - frameWeight config f level) with
        | inr rest =>
            rw [hbranches.1 rest hseek]
            simp only [pure_bind, seekOutcome, Sum.elim_inr, Frame.branches_snd,
              Frame.rebuild_children]
        | inl node =>
            rcases step_of_mem_childNodes (Weighted.mem_of_seek hseek) with ⟨step, p, hnode, -⟩
            rcases node with ⟨q, c⟩
            simp only at hnode
            subst hnode
            rw [hbranches.2 step p c hseek]
            simp only [bind_assoc, pure_bind, seekOutcome, Sum.elim_inl, mutateAt, Frame.replaceAt]

/-! ## Headers -/

/-- The visited frames with a length header, with their places in the visit. -/
def headerItems (visited : List Frame.Visited) (start : Nat) : List (Frame.Visited × Nat) :=
  (visited.zipIdx start).filter fun item => item.1.frame.declaredLength.isSome

/-- The weight of a visited frame. -/
def visitedWeight (depth : MutationDepth) (item : Frame.Visited × Nat) : Nat :=
  depth.weight item.1.level

/-- The header of a visited frame. -/
def headerOf (item : Frame.Visited × Nat) : Option Header :=
  item.1.frame.declaredLength.map fun original =>
    { index := item.2, path := item.1.path, original }

theorem headerWeight_eq_total (depth : MutationDepth) (visited : List Frame.Visited) :
    ∀ start, headerWeight depth visited =
      total (visitedWeight depth) (headerItems visited start) := by
  induction visited with
  | nil =>
      intro start
      rfl
  | cons v visited ih =>
      intro start
      rw [headerWeight, List.map_cons, List.sum_cons, ← headerWeight, ih (start + 1), headerItems,
        headerItems, List.zipIdx_cons, List.filter_cons]
      by_cases h : v.frame.declaredLength.isSome = true
      · rw [if_pos h, if_pos h, Weighted.total_cons]
        rfl
      · rw [if_neg h, if_neg h, Nat.zero_add]

/-- The walk through the visited frames is a walk through those with a header. -/
theorem weightedHeader_eq_seek (depth : MutationDepth) (visited : List Frame.Visited) :
    ∀ start r, weightedHeader depth visited start r =
      (seek (visitedWeight depth) (headerItems visited start) r).elim headerOf fun _ => none := by
  induction visited with
  | nil =>
      intro start r
      rfl
  | cons v visited ih =>
      intro start r
      rw [headerItems, List.zipIdx_cons, List.filter_cons, ← headerItems]
      unfold weightedHeader
      cases hlength : v.frame.declaredLength with
      | none =>
          simp only [Option.isSome_none, Bool.false_eq_true, if_false]
          exact ih (start + 1) r
      | some original =>
          have hweight : visitedWeight depth (v, start) = depth.weight v.level := rfl
          simp only [Option.isSome_some, if_true, seek, hweight]
          by_cases hhere : r < depth.weight v.level
          · rw [if_pos hhere, if_pos hhere, Sum.elim_inl, headerOf, hlength]
            rfl
          · rw [if_neg hhere, if_neg hhere]
            exact ih (start + 1) _

/-! ## Sums of weights -/

/-- An addition of 128-bit numbers that does not overflow. -/
def checkedAdd (a b : Nat) : Option Nat :=
  if a + b < 2 ^ 128 then some (a + b) else none

/-- The total weight, as it is summed up frame by frame. -/
def checkedWeight (config : EvilConfig) : Frame → Nat → Option Nat :=
  Frame.fold fun f walks level =>
    walks.foldlM (fun sum walk => do checkedAdd sum (← walk (level + 1)))
      (frameWeight config f level)

/-- The total weight of the headers, as it is summed up. -/
def checkedHeaderWeight (depth : MutationDepth) (visited : List Frame.Visited) : Option Nat :=
  visited.foldlM
    (fun sum v =>
      if v.frame.declaredLength.isSome then checkedAdd sum (depth.weight v.level) else some sum) 0

theorem weight_le (depth : MutationDepth) (level : Nat) : depth.weight level ≤ 2 ^ 64 := by
  cases depth with
  | any => exact Nat.one_le_two_pow
  | inner => exact Nat.pow_le_pow_right (by decide) (Nat.min_le_right _ _)

theorem eligibleWeight_le (config : EvilConfig) (f : Frame) (level : Nat) :
    eligibleWeight config f level ≤ f.size * 2 ^ 64 := by
  have hfew : (eligibleNodes config f).length ≤ f.size := by
    rw [← Frame.length_nodes]
    exact List.length_filter_le _ _
  rw [eligibleWeight_eq_total]
  exact (Weighted.total_le fun node _ => weight_le _ _).trans (Nat.mul_le_mul_right _ hfew)

theorem headerWeight_le (depth : MutationDepth) (f : Frame) :
    headerWeight depth (f.visit "root" 0) ≤ f.size * 2 ^ 64 := by
  have hvisit := congrArg List.length (Frame.visit_eq_nodes f [] 0)
  rw [List.length_map, Frame.length_nodes] at hvisit
  have hfew : (headerItems (f.visit (pathText []) 0) 0).length ≤ f.size := by
    have hfilter : (headerItems (f.visit (pathText []) 0) 0).length ≤
        ((f.visit (pathText []) 0).zipIdx 0).length := List.length_filter_le _ _
    rw [List.length_zipIdx, hvisit] at hfilter
    exact hfilter
  rw [headerWeight_eq_total depth _ 0]
  exact (Weighted.total_le fun item _ => weight_le _ _).trans (Nat.mul_le_mul_right _ hfew)

/-- A sum that stays small never overflows on the way. -/
theorem foldlM_checkedAdd {α : Type} {add : Nat → α → Option Nat} {value : α → Nat}
    {items : List α} {start : Nat}
    (hadd : ∀ a ∈ items, ∀ sum, sum + value a < 2 ^ 128 → add sum a = some (sum + value a))
    (h : start + (items.map value).sum < 2 ^ 128) :
    items.foldlM add start = some (start + (items.map value).sum) := by
  induction items generalizing start with
  | nil => rfl
  | cons a items ih =>
      rcases List.forall_mem_cons.mp hadd with ⟨ha, hitems⟩
      rw [List.map_cons, List.sum_cons, ← Nat.add_assoc] at h ⊢
      rw [List.foldlM_cons, ha start (by omega)]
      exact ih hitems h

theorem checkedAdd_eq_some {a b : Nat} (h : a + b < 2 ^ 128) : checkedAdd a b = some (a + b) :=
  if_pos h

/-- The sum over a tree with fewer than 2^63 frames never overflows. -/
theorem checkedWeight_eq (config : EvilConfig) {f : Frame} (h : f.size < 2 ^ 63) :
    ∀ level, checkedWeight config f level = some (eligibleWeight config f level) := by
  induction f using Frame.childInduction with
  | step f ih =>
      intro level
      have hbound := eligibleWeight_le config f level
      have hsum : (f.branches.map fun b => eligibleWeight config b.2 (level + 1)) =
          f.children.map fun c => eligibleWeight config c (level + 1) := by
        rw [← Frame.branches_snd, List.map_map]
        rfl
      rw [eligibleWeight_eq, hsum] at hbound ⊢
      rw [checkedWeight, Frame.fold_eq, List.foldlM_map]
      refine foldlM_checkedAdd (fun c hc sum hsum => ?_) (by omega)
      have hsize : c.size < 2 ^ 63 := by
        have hle := List.le_sum_of_mem (List.mem_map_of_mem (f := Frame.size) hc)
        have hroot := Frame.size_eq f
        omega
      have hchild := ih c hc hsize (level + 1)
      rw [checkedWeight] at hchild
      rw [hchild]
      exact checkedAdd_eq_some hsum

theorem checkedHeaderWeight_eq (depth : MutationDepth) {f : Frame} (h : f.size < 2 ^ 63) :
    checkedHeaderWeight depth (f.visit "root" 0) =
      some (headerWeight depth (f.visit "root" 0)) := by
  have hbound := headerWeight_le depth f
  rw [← Nat.zero_add (headerWeight depth (f.visit "root" 0))]
  refine foldlM_checkedAdd (fun v _ sum hsum => ?_) (by rw [← headerWeight]; omega)
  by_cases hheader : v.frame.declaredLength.isSome = true
  · rw [if_pos hheader] at hsum ⊢
    rw [if_pos hheader]
    exact checkedAdd_eq_some hsum
  · rw [if_neg hheader, if_neg hheader]
    rfl

/-- Where every frame weighs one, the total fits in a machine word. -/
theorem eligibleWeight_any {f : Frame} (hdepth : config.depth = .any) (h : f.size < 2 ^ 63) :
    eligibleWeight config f 0 % 2 ^ 64 = eligibleWeight config f 0 := by
  have hfew : (eligibleNodes config f).length ≤ f.size := by
    rw [← Frame.length_nodes]
    exact List.length_filter_le _ _
  have hone : eligibleWeight config f 0 = (eligibleNodes config f).length := by
    rw [eligibleWeight_eq_total, hdepth]
    exact Weighted.total_one _
  exact Nat.mod_eq_of_lt (by omega)

/-! ## Exact selection -/

/-- The drawn numbers select exactly, among the eligible frames and among the headers: each
number changes the frame that owns it, each frame is changed by as many numbers as it
weighs, and without any weight nothing is selected.  In trees with fewer than 2^63 frames no
sum overflows. -/
theorem selection_exact (lib : Externals) (config : EvilConfig) (depth : MutationDepth)
    (f : Frame) :
    Weighted.Exact (eligibleNodes config f) (nodeWeight config.depth 0)
        (eligibleWeight config f 0) (mutateSelected lib config f 0 "root")
        (mutateAt lib config f []) ∧
      selectWeight config f =
        (if eligibleWeight config f 0 = 0 then return none
          else some <$> genRange 0 (eligibleWeight config f 0)) ∧
      Weighted.Exact (headerItems (f.visit "root" 0) 0) (visitedWeight depth)
        (headerWeight depth (f.visit "root" 0)) (weightedHeader depth (f.visit "root" 0) 0)
        headerOf ∧
      selectWeightedHeader f depth =
        (if headerWeight depth (f.visit "root" 0) = 0 then return none
          else weightedHeader depth (f.visit "root" 0) 0 <$>
            genRange 0 (headerWeight depth (f.visit "root" 0))) ∧
      (∀ level, MutationDepth.any.weight level = 1 ∧
        MutationDepth.inner.weight level = 2 ^ min level 64) ∧
      (f.size < 2 ^ 63 →
        checkedWeight config f 0 = some (eligibleWeight config f 0) ∧
          checkedHeaderWeight depth (f.visit "root" 0) =
            some (headerWeight depth (f.visit "root" 0)) ∧
          (config.depth = .any →
            eligibleWeight config f 0 % 2 ^ 64 = eligibleWeight config f 0)) := by
  refine ⟨?_, rfl, ?_, ?_, fun level => ⟨rfl, rfl⟩, fun h => ?_⟩
  · rw [eligibleWeight_eq_total]
    exact Weighted.exact_of_seek fun r => mutateSelected_eq_seek lib config f 0 [] r
  · rw [headerWeight_eq_total depth _ 0]
    exact Weighted.exact_of_seek fun r => weightedHeader_eq_seek depth _ 0 r
  · unfold selectWeightedHeader
    simp only [map_eq_pure_bind]
  · exact ⟨checkedWeight_eq config h 0, checkedHeaderWeight_eq depth h,
      fun hdepth => eligibleWeight_any hdepth h⟩

end EvilResp
