import EvilResp.Library.Reservoir
import EvilResp.Mutation.Framing

/-!
# The choice of a length header

Without weights, a length header is chosen with one candidate stored.  The walk over the tree
is a reservoir over the headers that match, and so every one of them is as likely as any other.

Main results:

- Theorem {lit}`mem_matchingHeaders`: the candidates are the headers of the tree that match.
- Theorem {lit}`reservoir_eq_sample`: the walk is a reservoir over them.
- Theorem {lit}`selectHeader_uniform`: the bounds of the draws, and how many answers select
  each header.
-/

namespace EvilResp

open Library
open EvilResp.Resp

/-- The header of a visited frame, if it has one and its path matches. -/
def candidate (target : Target) (index : Nat) (v : Frame.Visited) : Option Header :=
  match v.frame.declaredLength with
  | some original =>
      if target.pathMatches v.path then some { index, path := v.path, original } else none
  | none => none

/-- The candidates among visited frames, counted from an index on. -/
def matchingHeaders (target : Target) : List Frame.Visited → Nat → List Header
  | [], _ => []
  | v :: visited, index =>
      (candidate target index v).toList ++ matchingHeaders target visited (index + 1)

theorem candidate_eq_some_iff {target : Target} {index : Nat} {v : Frame.Visited}
    {header : Header} :
    candidate target index v = some header ↔
      (header.index = index ∧ header.path = v.path ∧
        v.frame.declaredLength = some header.original) ∧ target.pathMatches header.path = true := by
  unfold candidate
  constructor
  · intro h
    split at h
    · rename_i original horiginal
      split at h
      · rename_i hmatch
        obtain rfl := Option.some.inj h
        exact ⟨⟨rfl, rfl, horiginal⟩, hmatch⟩
      · cases h
    · cases h
  · rintro ⟨⟨rfl, hpath, horiginal⟩, hmatch⟩
    rw [horiginal]
    simp only
    rw [← hpath, if_pos hmatch]

/-- The header that names the first frame, or one of the others. -/
theorem names_cons_iff {v : Frame.Visited} {visited : List Frame.Visited} {start : Nat}
    {header : Header} :
    header.Names (v :: visited) start ↔
      (header.index = start ∧ header.path = v.path ∧
        v.frame.declaredLength = some header.original) ∨ header.Names visited (start + 1) := by
  constructor
  · rintro ⟨k, w, hk, hindex, hpath, hlength⟩
    cases k with
    | zero =>
        obtain rfl : v = w := Option.some.inj hk
        exact .inl ⟨hindex, hpath, hlength⟩
    | succ k => exact .inr ⟨k, w, hk, by omega, hpath, hlength⟩
  · rintro (⟨hindex, hpath, hlength⟩ | h)
    · exact ⟨0, v, rfl, hindex, hpath, hlength⟩
    · exact h.cons v

/-- The candidates are the headers of the visited frames whose path matches. -/
theorem mem_matchingHeaders {target : Target} {visited : List Frame.Visited} {start : Nat}
    {header : Header} :
    header ∈ matchingHeaders target visited start ↔
      header.Names visited start ∧ target.pathMatches header.path = true := by
  induction visited generalizing start with
  | nil => simp [matchingHeaders, Header.Names]
  | cons v visited ih =>
      rw [matchingHeaders, List.mem_append, Option.mem_toList,
        candidate_eq_some_iff, ih, names_cons_iff, or_and_right]

theorem index_of_mem_matchingHeaders {target : Target} {visited : List Frame.Visited} {start : Nat}
    {header : Header} (h : header ∈ matchingHeaders target visited start) :
    start ≤ header.index := by
  obtain ⟨⟨k, v, -, hindex, -⟩, -⟩ := mem_matchingHeaders.mp h
  omega

/-- Each frame is a candidate once. -/
theorem nodup_matchingHeaders (target : Target) (visited : List Frame.Visited) (start : Nat) :
    (matchingHeaders target visited start).Nodup := by
  induction visited generalizing start with
  | nil => exact List.nodup_nil
  | cons v visited ih =>
      rw [matchingHeaders]
      cases hcandidate : candidate target start v with
      | none => exact ih (start + 1)
      | some header =>
          apply List.nodup_cons.mpr
          refine ⟨fun hmem => ?_, ih (start + 1)⟩
          have hindex := (candidate_eq_some_iff.mp hcandidate).1.1
          have hlater := index_of_mem_matchingHeaders hmem
          omega

/-! ## The walk is a reservoir -/

theorem reservoir_cons (target : Target) (v : Frame.Visited) (visited : List Frame.Visited)
    (index candidates : Nat) (selected : Option Header) :
    reservoir target (v :: visited) index candidates selected =
      match candidate target index v with
      | none => reservoir target visited (index + 1) candidates selected
      | some header =>
          keepCandidate (candidates + 1) >>= fun keep =>
            reservoir target visited (index + 1) (candidates + 1)
              (if keep then some header else selected) := by
  rw [reservoir, candidate]
  cases v.frame.declaredLength with
  | none => rfl
  | some original =>
      by_cases hmatch : target.pathMatches v.path = true
      · simp only [if_pos hmatch]
      · simp only [if_neg hmatch]

/-- Every later candidate is kept with the first answer. -/
theorem keepCandidate_bind {β : Type} {candidates : Nat} (h : candidates ≠ 1) (f : Bool → Draw β) :
    (keepCandidate candidates >>= f) =
      .choose candidates fun i => f (i.val = 0) := by
  rw [keepCandidate, if_neg h]
  apply congrArg (Draw.choose candidates)
  funext i
  exact congrArg (fun n => f (decide (n = 0))) (Nat.zero_add i.val)

/-- From the first candidate on, one header is held. -/
theorem reservoir_eq_reservoir (target : Target) (visited : List Frame.Visited)
    (index : Nat) {candidates : Nat} (hpos : 0 < candidates) (held : Header) :
    reservoir target visited index candidates (some held) =
      some <$> Draw.reservoir (matchingHeaders target visited index) candidates held := by
  induction visited generalizing index candidates held with
  | nil => rfl
  | cons v visited ih =>
      rw [reservoir_cons, matchingHeaders]
      cases hcandidate : candidate target index v with
      | none => exact ih (index + 1) hpos held
      | some header =>
          have hlater : candidates + 1 ≠ 1 := by omega
          simp only [keepCandidate_bind hlater]
          apply congrArg (Draw.choose (candidates + 1))
          funext i
          have hheld := ih (index + 1) (Nat.succ_pos candidates) (if i.val = 0 then header else held)
          simp only [decide_eq_true_eq]
          rw [← apply_ite some]
          exact hheld

/-- The first candidate is held without a draw. -/
theorem reservoir_eq_sample (target : Target) (visited : List Frame.Visited) (index : Nat) :
    reservoir target visited index 0 none =
      Draw.sample (matchingHeaders target visited index) := by
  induction visited generalizing index with
  | nil => rfl
  | cons v visited ih =>
      rw [reservoir_cons, matchingHeaders]
      cases hcandidate : candidate target index v with
      | none => exact ih (index + 1)
      | some header => exact reservoir_eq_reservoir target visited (index + 1) one_pos header

/-! ## The choice is uniform -/

/-- Without weights, there is one draw for each matching header but the first, below the number
of candidates so far.  No header is selected if and only if none matches, what is selected
names one frame of the tree, and every header is selected by equally many answers. -/
theorem selectHeader_uniform (f : Frame) (target : Target) (depth : MutationDepth)
    (hunweighted : ¬ (target = .any ∧ depth = .inner)) :
    ∃ headers : List Header, headers.Nodup ∧
      (∀ header, header ∈ headers ↔
        header.Names (f.visit "root" 0) 0 ∧ target.pathMatches header.path = true) ∧
      (selectHeader f target depth).Asks (List.range' 2 (headers.length - 1)) ∧
      (∀ tuple, ((selectHeader f target depth).answer tuple).isSome ↔
        List.Forall₂ (· < ·) tuple (List.range' 2 (headers.length - 1))) ∧
      (∀ tuple selected, (selectHeader f target depth).answer tuple = some selected →
        (selected = none ↔ headers = []) ∧ ∀ header, selected = some header → header ∈ headers) ∧
      (headers ≠ [] → { tuple | ((selectHeader f target depth).answer tuple).isSome }.ncard =
        headers.length.factorial) ∧
      ∀ header ∈ headers,
        { tuple | (selectHeader f target depth).answer tuple = some (some header) }.ncard =
          (headers.length - 1).factorial := by
  have hwalk : selectHeader f target depth =
      Draw.sample (matchingHeaders target (f.visit "root" 0) 0) := by
    rw [selectHeader, if_neg hunweighted]
    exact reservoir_eq_sample target _ 0
  have hnodup := nodup_matchingHeaders target (f.visit "root" 0) 0
  have hasks := Draw.asks_sample (matchingHeaders target (f.visit "root" 0) 0)
  rw [hwalk]
  refine ⟨_, hnodup, fun header => mem_matchingHeaders, hasks, fun tuple => hasks.answer_isSome,
    fun tuple selected hselected => ?_, fun hne => Draw.ncard_sample hne,
    fun header hheader => Draw.ncard_sample_some hnodup hheader⟩
  obtain ⟨hnone, hsome⟩ := Draw.All.of_answer (Draw.all_sample _) hselected
  refine ⟨⟨hnone, fun hempty => ?_⟩, hsome⟩
  cases selected with
  | none => rfl
  | some header =>
      have hmem := hsome header rfl
      rw [hempty] at hmem
      cases hmem

/-- The three headers of an array with two strings. -/
theorem selectHeader_uniform_array :
    ∃ headers : List Header,
      (∀ header, header ∈ headers ↔
        header.Names ((Frame.array (some [.bulkString (some [1]), .bulkString (some [2])])).visit
          "root" 0) 0 ∧ Target.any.pathMatches header.path = true) ∧
      ∀ header ∈ headers,
        { tuple | (selectHeader (.array (some [.bulkString (some [1]), .bulkString (some [2])]))
          .any .any).answer tuple = some (some header) }.ncard = (headers.length - 1).factorial := by
  obtain ⟨headers, -, hmem, -, -, -, -, hcount⟩ :=
    selectHeader_uniform (.array (some [.bulkString (some [1]), .bulkString (some [2])])) .any .any
      (by decide)
  exact ⟨headers, hmem, hcount⟩

end EvilResp
