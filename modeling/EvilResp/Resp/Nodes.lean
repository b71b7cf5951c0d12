import EvilResp.Resp.Path

/-!
# Frames with their positions

The frames of a tree in wire order, each with the position that leads to it, and the tree
with another frame at one position.

Main results:

- Theorem {lit}`Frame.visit_eq_nodes`: a visit goes through these frames, under the paths
  of their positions.
- Theorem {lit}`Frame.nodup_nodes`: no position occurs twice.
- Theorem {lit}`Frame.size_le_of_branching` and theorem {lit}`Frame.encode_length_le`: bounds
  on every frame bound the tree and its encoding.
-/

namespace EvilResp
namespace Resp
namespace Frame

open Library

/-- The frames of a tree in wire order with their positions. -/
def nodes : Frame → List (List Step × Frame) :=
  fold fun f walks =>
    ([], f) :: (f.steps.zip walks).flatMap fun (step, walk) =>
      walk.map fun node => (step :: node.1, node.2)

theorem nodes_eq (f : Frame) : f.nodes = ([], f) :: f.branches.flatMap fun b =>
    b.2.nodes.map fun node => (b.1 :: node.1, node.2) := by
  rw [nodes, fold_eq, zip_steps, List.flatMap_map]

/-- A visit goes through the frames of the tree. -/
theorem visit_eq_nodes (f : Frame) : ∀ p level, f.visit (pathText p) level =
    f.nodes.map fun node =>
      { frame := node.2, path := pathText (p ++ node.1), level := level + node.1.length } := by
  induction f using childInduction with
  | step f ih =>
      intro p level
      have hbranch : ∀ b ∈ f.branches, b.2.visit (pathText p ++ b.1.text) (level + 1) =
          (b.2.nodes.map fun node => (b.1 :: node.1, node.2)).map fun node : List Step × Frame =>
            ({ frame := node.2, path := pathText (p ++ node.1),
               level := level + node.1.length } : Visited) := by
        intro b hb
        rw [← pathText_snoc, ih b.2 (mem_children_of_mem_branches hb), List.map_map]
        refine List.map_congr_left fun node _ => ?_
        simp only [Function.comp_apply, List.append_assoc, List.singleton_append, List.length_cons,
          Visited.mk.injEq, true_and]
        omega
      rw [visit_eq, nodes_eq, List.map_cons, List.map_flatMap]
      simp only [List.append_nil, List.length_nil, Nat.add_zero, List.cons.injEq, true_and]
      rw [List.flatMap_def, List.flatMap_def, List.map_congr_left hbranch]

/-- The frames at the positions of the tree. -/
theorem mem_nodes {f c : Frame} {p : List Step} : (p, c) ∈ f.nodes ↔ f.at? p = some c := by
  induction p generalizing f with
  | nil =>
      rw [nodes_eq]
      simp [at?, Tree.at?, eq_comm]
  | cons step p ih =>
      rw [nodes_eq, List.mem_cons, List.mem_flatMap, at?, Tree.at?, Option.bind_eq_some_iff]
      constructor
      · rintro (hroot | ⟨⟨step', d⟩, hbranch, hnode⟩)
        · cases hroot
        · rcases List.mem_map.mp hnode with ⟨⟨q, e⟩, hmem, heq⟩
          cases heq
          exact ⟨d, mem_branches_iff.mp hbranch, ih.mp hmem⟩
      · rintro ⟨d, hlookup, hp⟩
        exact .inr ⟨(step, d), mem_branches_iff.mpr hlookup,
          List.mem_map.mpr ⟨(p, c), ih.mpr hp, rfl⟩⟩

theorem length_nodes (f : Frame) : f.nodes.length = f.size := by
  induction f using childInduction with
  | step f ih =>
      rw [nodes_eq, List.length_cons, size_eq, List.length_flatMap, ← branches_snd, List.map_map]
      have hlengths : f.branches.map (fun b =>
          (b.2.nodes.map fun node => (b.1 :: node.1, node.2)).length) =
            f.branches.map (size ∘ Prod.snd) := by
        refine List.map_congr_left fun b hb => ?_
        rw [List.length_map]
        exact ih b.2 (mem_children_of_mem_branches hb)
      rw [hlengths]
      omega

/-- No position occurs twice. -/
theorem nodup_nodes (f : Frame) : (f.nodes.map Prod.fst).Nodup := by
  induction f using childInduction with
  | step f ih =>
      rw [nodes_eq, List.map_cons, List.nodup_cons, List.map_flatMap]
      constructor
      · intro hroot
        rcases List.mem_flatMap.mp hroot with ⟨b, -, hmem⟩
        rw [List.map_map] at hmem
        rcases List.mem_map.mp hmem with ⟨node, -, heq⟩
        cases heq
      · rw [List.nodup_flatMap]
        constructor
        · intro b hb
          rw [List.map_map]
          have hpositions := (ih b.2 (mem_children_of_mem_branches hb)).map
            (f := (b.1 :: ·)) fun p q heq => (List.cons.inj heq).2
          rwa [List.map_map] at hpositions
        · have hsteps : f.branches.Pairwise fun b d => b.1 ≠ d.1 :=
            List.pairwise_map.mp f.steps_nodup
          refine hsteps.imp fun hne => ?_
          simp only [Function.onFun, List.disjoint_left, List.map_map, List.mem_map]
          rintro p ⟨node, -, rfl⟩ ⟨node', -, heq⟩
          exact hne (List.cons.inj heq).1.symm

/-! ## All frames of a tree -/

/-- A property of every frame of a tree. -/
def Everywhere (Q : Frame → Prop) (f : Frame) : Prop :=
  ∀ node ∈ f.nodes, Q node.2

theorem everywhere_iff {Q : Frame → Prop} {f : Frame} :
    f.Everywhere Q ↔ Q f ∧ ∀ c ∈ f.children, c.Everywhere Q := by
  unfold Everywhere
  rw [nodes_eq, List.forall_mem_cons]
  apply and_congr_right
  intro _
  constructor
  · intro h c hc node hnode
    rw [← branches_snd] at hc
    rcases List.mem_map.mp hc with ⟨b, hb, rfl⟩
    exact h (b.1 :: node.1, node.2)
      (List.mem_flatMap.mpr ⟨b, hb, List.mem_map.mpr ⟨node, hnode, rfl⟩⟩)
  · intro h node hnode
    rcases List.mem_flatMap.mp hnode with ⟨b, hb, hmem⟩
    rcases List.mem_map.mp hmem with ⟨inner, hinner, rfl⟩
    exact h b.2 (mem_children_of_mem_branches hb) inner hinner

theorem Everywhere.here {Q : Frame → Prop} {f : Frame} (h : f.Everywhere Q) : Q f :=
  (everywhere_iff.mp h).1

theorem Everywhere.of_mem_children {Q : Frame → Prop} {f c : Frame} (h : f.Everywhere Q)
    (hc : c ∈ f.children) : c.Everywhere Q :=
  (everywhere_iff.mp h).2 c hc

theorem Everywhere.mono {Q R : Frame → Prop} {f : Frame} (h : f.Everywhere Q)
    (himp : ∀ c, Q c → R c) : f.Everywhere R :=
  fun node hnode => himp _ (h node hnode)

/-- Frames with few children on every level make a small tree. -/
theorem size_le_of_branching {width : Nat} {f : Frame}
    (h : f.Everywhere fun c => c.children.length ≤ width) :
    ∀ levels, f.depth ≤ levels + 1 → f.size ≤ ((List.range (levels + 1)).map (width ^ ·)).sum := by
  induction f using childInduction with
  | step f ih =>
      intro levels hdepth
      cases levels with
      | zero =>
          have hleaf : f.children = [] := by
            by_contra hne
            rcases List.exists_mem_of_ne_nil _ hne with ⟨c, hc⟩
            have hlt := depth_lt_of_mem_children hc
            have hpos := c.depth_pos
            omega
          rw [size_eq, hleaf]
          simp
      | succ levels =>
          have hchild : ∀ c ∈ f.children,
              c.size ≤ ((List.range (levels + 1)).map (width ^ ·)).sum := by
            intro c hc
            have hlt := depth_lt_of_mem_children hc
            exact ih c hc (h.of_mem_children hc) levels (by omega)
          have hsum : (f.children.map size).sum ≤
              f.children.length * ((List.range (levels + 1)).map (width ^ ·)).sum := by
            have hle := List.sum_le_card_nsmul (f.children.map size) _ fun n hn => by
              rcases List.mem_map.mp hn with ⟨c, hc, rfl⟩
              exact hchild c hc
            rwa [List.length_map, smul_eq_mul] at hle
          have hwidth := Nat.mul_le_mul_right ((List.range (levels + 1)).map (width ^ ·)).sum h.here
          have hpowers : ((List.range (levels + 2)).map (width ^ ·)).sum =
              1 + width * ((List.range (levels + 1)).map (width ^ ·)).sum := by
            rw [List.range_succ_eq_map, List.map_cons, List.sum_cons, List.map_map,
              ← List.sum_map_mul_left]
            simp only [pow_zero, Function.comp_def, Nat.succ_eq_add_one, pow_succ']
          rw [size_eq, hpowers]
          omega

/-- Frames with short heads make a short encoding. -/
theorem encode_length_le {limit : Nat} {f : Frame}
    (h : f.Everywhere fun c => (c.head none).length ≤ limit) :
    f.encode.length ≤ f.size * limit := by
  induction f using childInduction with
  | step f ih =>
      have hchildren : (f.children.flatMap encode).length ≤ (f.children.map size).sum * limit := by
        rw [List.length_flatMap, ← List.sum_map_mul_right]
        exact List.sum_le_sum fun c hc => ih c hc (h.of_mem_children hc)
      have hhead := h.here
      rw [encode_eq, List.length_append, size_eq, Nat.add_mul]
      omega

/-! ## Another frame at one position -/

/-- The tree with another frame at a position. -/
def replaceAt : Frame → List Step → Frame → Frame
  | _, [], g => g
  | f, step :: p, g =>
      f.rebuild (f.branches.map fun b => if b.1 = step then b.2.replaceAt p g else b.2)

/-- Branches that another step leads to are kept. -/
theorem map_if_ne {bs : List (Step × Frame)} {step : Step} (h : step ∉ bs.map Prod.fst)
    (change : Frame → Frame) :
    (bs.map fun b => if b.1 = step then change b.2 else b.2) = bs.map Prod.snd := by
  refine List.map_congr_left fun b hb => if_neg ?_
  rintro rfl
  exact h (List.mem_map_of_mem hb)

end Frame
end Resp
end EvilResp
