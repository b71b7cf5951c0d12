import EvilResp.Config.Target
import EvilResp.Mutation.Selection

/-!
# Paths as addresses

A recorded path addresses one frame of the reply it was recorded for.  The walks over a
reply write the same path for the same frame, and a path can be given back as a target.

Main results:

- Theorem {lit}`Target.parse_pathText`: the path of a position is a normalized target.
- Theorem {lit}`paths_address`: paths are distinct, common to all walks, and each of them is
  accepted as the target of its frame.
-/

namespace EvilResp

open Library
open EvilResp.Resp

/-! ## The segments of a path -/

/-- The segments of a step. -/
def stepParts (step : Step) : List (List Char) :=
  match step.member with
  | .item => [step.index.repr.toList]
  | .key => [step.index.repr.toList, "key".toList]
  | .value => [step.index.repr.toList, "value".toList]

namespace Target

/-- The text of two lists of segments. -/
theorem dotted_append (parts others : List (List Char)) :
    dotted (parts ++ others) = dotted parts ++ dotted others := by
  rw [dotted, List.flatMap_append, String.ofList_append]
  rfl

/-- The segments of a step make up its text. -/
theorem dotted_stepParts (step : Step) : dotted (stepParts step) = step.text := by
  have hnil : dotted [] = "" := rfl
  rcases step with ⟨index, member⟩
  cases member with
  | item =>
      rw [stepParts, dotted_cons, hnil]
      rfl
  | key =>
      rw [stepParts, dotted_cons, dotted_cons, hnil, String.append_empty]
      rfl
  | value =>
      rw [stepParts, dotted_cons, dotted_cons, hnil, String.append_empty]
      rfl

/-- The text of a path consists of the segments of its steps. -/
theorem pathText_eq_dotted (p : List Step) : pathText p = "root" ++ dotted (p.flatMap stepParts) := by
  have hchars : ∀ p : List Step, String.ofList (stepChars p) = dotted (p.flatMap stepParts) := by
    intro p
    induction p with
    | nil => rfl
    | cons step p ih =>
        rw [List.flatMap_cons, dotted_append, ← ih, dotted_stepParts]
        apply String.toList_injective
        simp [stepChars]
  rw [pathText_eq, hchars]

/-- The segments of a path are written as the parser writes them. -/
theorem normal_stepParts {p : List Step} (h : ∀ step ∈ p, step.index < 2 ^ 64) :
    ∀ afterIndex, Normal afterIndex (p.flatMap stepParts) := by
  induction p with
  | nil =>
      intro afterIndex
      exact .nil afterIndex
  | cons step p ih =>
      intro afterIndex
      rcases List.forall_mem_cons.mp h with ⟨hstep, hp⟩
      rcases step with ⟨index, member⟩
      cases member with
      | item => exact .index hstep (ih hp true)
      | key => exact .index hstep (.member (.inl rfl) (ih hp false))
      | value => exact .index hstep (.member (.inr rfl) (ih hp false))

/-- The path of a position is a normalized target. -/
theorem parse_pathText {p : List Step} (h : ∀ step ∈ p, step.index < 2 ^ 64) :
    parse (pathText p) = .ok (.path (pathText p)) := by
  rw [pathText_eq_dotted]
  exact parse_of_normal (normal_stepParts h false)

end Target

/-! ## Indexes -/

namespace Resp
namespace Frame

/-- A frame has fewer children than it has frames. -/
theorem length_children_lt (f : Frame) : f.children.length < f.size := by
  have hsum : f.children.length * 1 ≤ (f.children.map size).sum := by
    rw [← List.length_map (f := size), ← smul_eq_mul]
    refine List.card_nsmul_le_sum _ 1 fun n hn => ?_
    rcases List.mem_map.mp hn with ⟨c, -, rfl⟩
    exact c.size_pos
  rw [size_eq]
  omega

/-- A child is no larger than its parent. -/
theorem size_le_of_mem_children {f c : Frame} (h : c ∈ f.children) : c.size ≤ f.size := by
  have hsum := List.single_le_sum (fun n _ => Nat.zero_le n) c.size (List.mem_map_of_mem (f := size) h)
  rw [size_eq f]
  omega

/-- The items of a sequence are counted up. -/
theorem index_lt_of_itemBranches {items : List Frame} {index : Nat} :
    ∀ b ∈ itemBranches index items, b.1.index < index + (itemBranches index items).length := by
  induction items generalizing index with
  | nil => simp [itemBranches]
  | cons item items ih =>
      rw [itemBranches, List.length_cons]
      refine List.forall_mem_cons.mpr ⟨by dsimp only; omega, fun b hb => ?_⟩
      have hb := ih b hb
      omega

/-- The keys and values of pairs are counted up. -/
theorem index_lt_of_pairBranches {pairs : List (Frame × Frame)} {index : Nat} :
    ∀ b ∈ pairBranches index pairs, b.1.index < index + (pairBranches index pairs).length := by
  induction pairs generalizing index with
  | nil => simp [pairBranches]
  | cons pair pairs ih =>
      rw [pairBranches, List.length_cons, List.length_cons]
      refine List.forall_mem_cons.mpr ⟨by dsimp only; omega, List.forall_mem_cons.mpr
        ⟨by dsimp only; omega, fun b hb => ?_⟩⟩
      have hb := ih b hb
      omega

/-- The index of a branch is bounded by the number of branches. -/
theorem index_lt_length_branches {f : Frame} {b : Step × Frame} (h : b ∈ f.branches) :
    b.1.index < f.branches.length := by
  cases f with
  | array items =>
      cases items with
      | none => cases h
      | some items => simpa [branches] using index_lt_of_itemBranches b h
  | set items => simpa [branches] using index_lt_of_itemBranches b h
  | push items => simpa [branches] using index_lt_of_itemBranches b h
  | map items => simpa [branches] using index_lt_of_pairBranches b h
  | «attribute» items => simpa [branches] using index_lt_of_pairBranches b h
  | _ => cases h

/-- An index is below the number of children, and so below the number of frames. -/
theorem index_lt_of_mem_branches {f : Frame} {b : Step × Frame} (h : b ∈ f.branches) :
    b.1.index < f.size := by
  have hchildren := f.length_children_lt
  rw [← branches_snd, List.length_map] at hchildren
  exact (index_lt_length_branches h).trans hchildren

/-- No step of a path has an index beyond the size of the frame. -/
theorem index_lt_of_at? {p : List Step} {f c : Frame} (h : f.at? p = some c) :
    ∀ step ∈ p, step.index < f.size := by
  induction p generalizing f with
  | nil => simp
  | cons step p ih =>
      rcases Option.bind_eq_some_iff.mp h with ⟨d, hlookup, hp⟩
      have hbranch := mem_branches_iff.mpr hlookup
      refine List.forall_mem_cons.mpr ⟨index_lt_of_mem_branches hbranch, fun s hs => ?_⟩
      exact (ih hp s hs).trans_le (size_le_of_mem_children (mem_children_of_mem_branches hbranch))

/-! ## Addresses -/

/-- A visited frame stands at a position, under its path. -/
def Stands (f : Frame) (p : List Step) (v : Visited) : Prop :=
  v ∈ f.visit "root" 0 ∧ f.at? p = some v.frame ∧ v.path = pathText p

/-- What is visited stands at a path. -/
theorem exists_stands {f : Frame} {v : Visited} (h : v ∈ f.visit "root" 0) :
    ∃ p, f.Stands p v ∧ v.level = p.length := by
  have hroot : pathText [] = "root" := rfl
  have hvisit := h
  rw [← hroot, mem_visit] at hvisit
  rcases hvisit with ⟨p, hp, hpath, hlevel⟩
  exact ⟨p, ⟨h, hp, hpath⟩, by rw [hlevel, Nat.zero_add]⟩

/-- What stands at a path is visited. -/
theorem exists_stands_of_at? {f c : Frame} {p : List Step} (h : f.at? p = some c) :
    ∃ v, f.Stands p v ∧ v.frame = c := by
  have hroot : pathText [] = "root" := rfl
  refine ⟨{ frame := c, path := pathText p, level := p.length }, ⟨?_, h, rfl⟩, rfl⟩
  rw [← hroot, mem_visit]
  exact ⟨p, h, rfl, (Nat.zero_add _).symm⟩

/-- No two frames of a tree have the same path. -/
theorem nodup_paths (f : Frame) : ((f.visit "root" 0).map Visited.path).Nodup := by
  have hroot : pathText [] = "root" := rfl
  rw [← hroot, visit_eq_nodes, List.map_map]
  have hpaths := f.nodup_nodes.map pathText_injective
  rw [List.map_map] at hpaths
  exact hpaths

/-- Two visits with one path text are one. -/
theorem eq_of_path_eq {f : Frame} {v w : Visited} (hv : v ∈ f.visit "root" 0)
    (hw : w ∈ f.visit "root" 0) (h : v.path = w.path) : v = w :=
  List.inj_on_of_nodup_map f.nodup_paths hv hw h

end Frame
end Resp

/-- The records of a walk: the paths are those of the visited frames, and exactly at their
positions the tree was changed. -/
def Recorded (config : EvilConfig) (f g : Frame) (log : List AppliedMutation) : Prop :=
  ∃ items : List (List Step × Frame.Visited),
    (∀ item ∈ items, f.Stands item.1 item.2) ∧
      log.map AppliedMutation.path = items.map (fun item => item.2.path) ∧
      Tree.Edited Frame.branches Frame.SameShell (Change config) f g (items.map Prod.fst)

variable {lib : Externals} {config : EvilConfig}

/-- An edit is recorded at the paths where it happened. -/
theorem Edits.recorded {f g : Frame} {log : List AppliedMutation} (h : Edits config [] f g log) :
    Recorded config f g log := by
  rcases h with ⟨ps, ⟨hlog, -⟩, hedited⟩
  have hstands : ∀ p ∈ ps, ∃ v, f.Stands p v := by
    intro p hp
    rcases hedited.changed p hp with ⟨c, _, hc, -, -⟩
    rcases Frame.exists_stands_of_at? hc with ⟨v, hv, -⟩
    exact ⟨v, hv⟩
  have : Nonempty Frame.Visited := ⟨{ frame := f, path := "root", level := 0 }⟩
  choose! visited hvisited using hstands
  refine ⟨ps.map fun p => (p, visited p), ?_, ?_, ?_⟩
  · intro item hitem
    rcases List.mem_map.mp hitem with ⟨p, hp, rfl⟩
    exact hvisited p hp
  · rw [hlog, List.map_map]
    exact List.map_congr_left fun p hp => (hvisited p hp).2.2.symm
  · have hpositions : (ps.map fun p => (p, visited p)).map Prod.fst = ps := by
      rw [List.map_map]
      exact List.map_id ps
    rwa [hpositions]

/-- The walk over all frames records where it changed them. -/
theorem mutateFrame_recorded (hmode : config.mode = .mutate ∨ config.mode = .overflow)
    (maxDepth : Nat) (f : Frame) :
    (mutateFrame lib config maxDepth f 0 "root").All fun result =>
      Recorded config f result.1 result.2 :=
  Draw.all_mono (all_mutateFrame hmode maxDepth f 0 []) fun _ hresult => hresult.recorded

/-- The walk to one selected frame records where it changed it. -/
theorem mutateSelected_recorded (hmode : config.mode = .mutate ∨ config.mode = .overflow)
    (f : Frame) (remaining : Nat) :
    (mutateSelected lib config f 0 "root" remaining).All fun result =>
      Recorded config f result.1 result.2.log := by
  refine Draw.all_mono (all_mutateSelected hmode f 0 [] remaining) fun result hresult => ?_
  rcases result with ⟨g, selection⟩
  cases selection with
  | hit m => exact Edits.recorded hresult.2
  | passed rest =>
      obtain rfl : g = f := hresult.1
      exact (Edits.refl [] g).recorded

/-- Every eligible frame is the one that some number selects. -/
theorem exists_selecting (lib : Externals) {f : Frame} {v : Frame.Visited}
    (hv : v ∈ f.visit "root" 0) (heligible : eligible config v.frame = true) :
    ∃ remaining p, remaining < eligibleWeight config f 0 ∧ f.Stands p v ∧
      mutateSelected lib config f 0 "root" remaining =
        mutateAt lib config f [] (p, v.frame) := by
  rcases Frame.exists_stands hv with ⟨p, hp, -⟩
  have hnode : (p, v.frame) ∈ eligibleNodes config f :=
    List.mem_filter.mpr ⟨Frame.mem_nodes.mpr hp.2.1, heligible⟩
  rcases List.mem_iff_getElem?.mp hnode with ⟨k, hk⟩
  have hweight : 0 < nodeWeight config.depth 0 (p, v.frame) := weight_pos _ _
  have hnext := Weighted.total_take_succ (nodeWeight config.depth 0) hk
  set start := Weighted.total (nodeWeight config.depth 0) ((eligibleNodes config f).take k)
    with hstart
  have howns : Weighted.Owns (nodeWeight config.depth 0) (eligibleNodes config f) start k :=
    ⟨(List.getElem?_eq_some_iff.mp hk).1, le_rfl, by omega⟩
  refine ⟨start, p, ?_, hp, ?_⟩
  · have hle := Weighted.total_take_le (nodeWeight config.depth 0) (eligibleNodes config f) (k + 1)
    rw [eligibleWeight_eq_total]
    exact howns.2.2.trans_le hle
  · have hselect := mutateSelected_eq_seek lib config f 0 [] start
    rw [Weighted.seek_of_owns howns hk] at hselect
    exact hselect

/-- Paths address.  The paths of the frames of a tree are distinct, the walks that mutate
record them for the frames they change, and each is read as the target of its frame alone.
Letter case and leading zeros do not matter to a target, and its text is read as itself. -/
theorem paths_address (f : Frame) :
    ((f.visit "root" 0).map Frame.Visited.path).Nodup ∧
      (∀ (lib : Externals) (config : EvilConfig),
        (config.mode = .mutate ∨ config.mode = .overflow) →
          (∀ maxDepth, (mutateFrame lib config maxDepth f 0 "root").All fun result =>
            Recorded config f result.1 result.2) ∧
          (∀ remaining, (mutateSelected lib config f 0 "root" remaining).All fun result =>
            Recorded config f result.1 result.2.log) ∧
          ∀ v ∈ f.visit "root" 0, eligible config v.frame = true →
            ∃ remaining p, remaining < eligibleWeight config f 0 ∧ f.Stands p v ∧
              mutateSelected lib config f 0 "root" remaining =
                mutateAt lib config f [] (p, v.frame)) ∧
      (f.size ≤ 2 ^ 64 → ∀ v ∈ f.visit "root" 0, ∃ target, Target.parse v.path = .ok target ∧
        ∀ w ∈ f.visit "root" 0, target.pathMatches w.path = true ↔ w = v) ∧
      (∀ value value', toAsciiLowercase value = toAsciiLowercase value' →
        Target.parse value = Target.parse value') ∧
      (∀ before after c count, c.isDigit = true →
        Target.parse (String.ofList (before ++ '.' :: (List.replicate count '0' ++ c :: after))) =
          Target.parse (String.ofList (before ++ '.' :: c :: after))) ∧
      ∀ value target, Target.parse value = .ok target → Target.parse target.asStr = .ok target := by
  refine ⟨f.nodup_paths, fun lib config hmode => ?_, fun hsize v hv => ?_,
    fun _ _ => Target.parse_of_eq_lowercase, fun before after c count hc => ?_,
    fun _ _ => Target.parse_asStr⟩
  · refine ⟨fun maxDepth => mutateFrame_recorded hmode maxDepth f,
      fun remaining => mutateSelected_recorded hmode f remaining, fun v hv heligible => ?_⟩
    exact exists_selecting lib hv heligible
  · rcases Frame.exists_stands hv with ⟨p, ⟨-, hp, hpath⟩, -⟩
    have hindexes : ∀ step ∈ p, step.index < 2 ^ 64 := fun step hstep =>
      (Frame.index_lt_of_at? hp step hstep).trans_le hsize
    refine ⟨.path v.path, ?_, fun w hw => ?_⟩
    · rw [hpath]
      exact Target.parse_pathText hindexes
    · rw [Target.pathMatches, decide_eq_true_eq]
      constructor
      · intro hsame
        exact Frame.eq_of_path_eq hw hv hsame.symm
      · rintro rfl
        rfl
  · exact Target.parse_zeros hc before after count

end EvilResp
