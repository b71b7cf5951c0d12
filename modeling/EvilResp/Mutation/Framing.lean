import EvilResp.Config.Evil
import EvilResp.Resp.Header
import EvilResp.Resp.Unique
import EvilResp.Rng

/-!
# Length faults

Mutation records, and the fault that overwrites one length header.  The header is
chosen among the frames of the reply, by a path, uniformly, or with weights that
favour nested frames.  Bodies always use their actual sizes.

Main results:

- Theorem {lit}`all_mutateLength`: a length fault overwrites exactly one header, and
  its record names the frame, the old length and the new digits.
- Theorem {lit}`all_selectHeader_isSome`: a header is selected if any matches.
- Theorem {lit}`mutateLength_spliced`: the header is overwritten in its place, with a
  different number of the recorded kind.
-/

namespace EvilResp

open Library
open EvilResp.Resp

/-! ## Records -/

/-- The kinds of changes that are recorded. -/
inductive MutationKind where
  | execRemove
  | execDuplicate
  | execSwap
  | randomFrame
  | randomValue
  | wrongType
  | wrongLength
  | overflowValue
  | topologyFakeRedirection
  | topologyWrongRedirectionKind
  | topologyWrongSlot
  | topologyWrongServer
  | topologyWildSlot
  | topologyRedirectBefore
  | topologyRedirectAfter
deriving DecidableEq

/-- Texts keep the exact decimals, also beyond any integer range. -/
structure LengthMutation where
  kind : LengthCorruption
  original : String
  replacement : String
deriving DecidableEq

/-- What an edit of a transaction reply is recorded with. -/
structure ExecMutation where
  originalCount : Nat
  replacementCount : Nat
  /-- Index into the canonicalized array. -/
  index : Nat
  /-- Second index of a swap; a duplicate is inserted right after {lit}`index`. -/
  otherIndex : Option Nat
deriving DecidableEq

/-- A change with the path of the frame that was changed. -/
structure AppliedMutation where
  path : String
  kind : MutationKind
  length : Option LengthMutation := none
  exec : Option ExecMutation := none
deriving DecidableEq

/-- A reply with the changes that were made. -/
structure MutatedReply where
  bytes : Bytes
  mutations : List AppliedMutation
deriving DecidableEq

/-- Draw whether a fault with a probability in percent applies. -/
def shouldApply (probability : F64) : Draw Bool :=
  if F64.zero.lt probability then (fun x => x.lt probability) <$> genPercent
  else return false

theorem safe_shouldApply (probability : F64) : (shouldApply probability).Safe := by
  unfold shouldApply
  split
  · exact Draw.safe_map (all_percent fun _ _ _ => trivial)
  · trivial

/-- A probability of a hundred always applies. -/
theorem all_shouldApply_hundred : (shouldApply .hundred).All (· = true) := by
  have hpositive : F64.zero.lt .hundred = true := by decide
  rw [shouldApply, if_pos hpositive, Draw.all_map]
  apply all_percent
  intro q _ hq
  simpa [F64.lt, F64.rank, F64.hundred, F64.signed] using hq

/-! ## Choosing a header -/

/-- A header of a reply, with its number in wire order. -/
structure Header where
  index : Nat
  path : String
  original : Int

/-- Whether the newest of a number of candidates replaces the selected one. -/
def keepCandidate (candidates : Nat) : Draw Bool :=
  if candidates = 1 then return true
  else (fun i => i = 0) <$> genRange 0 candidates

/-- Select uniformly among the headers that match, with one candidate stored. -/
def reservoir (target : Target) :
    List Frame.Visited → Nat → Nat → Option Header → Draw (Option Header)
  | [], _, _, selected => return selected
  | v :: visited, index, candidates, selected =>
      match v.frame.declaredLength with
      | some original =>
          if target.pathMatches v.path then do
            let keep ← keepCandidate (candidates + 1)
            let selected := if keep then some { index, path := v.path, original } else selected
            reservoir target visited (index + 1) (candidates + 1) selected
          else reservoir target visited (index + 1) candidates selected
      | none => reservoir target visited (index + 1) candidates selected

/-- The header that a cumulative weight falls on. -/
def weightedHeader (depth : MutationDepth) : List Frame.Visited → Nat → Nat → Option Header
  | [], _, _ => none
  | v :: visited, index, remaining =>
      match v.frame.declaredLength with
      | some original =>
          let weight := depth.weight v.level
          if remaining < weight then some { index, path := v.path, original }
          else weightedHeader depth visited (index + 1) (remaining - weight)
      | none => weightedHeader depth visited (index + 1) remaining

/-- The weights of all headers together. -/
def headerWeight (depth : MutationDepth) (visited : List Frame.Visited) : Nat :=
  (visited.map fun v => if v.frame.declaredLength.isSome then depth.weight v.level else 0).sum

/-- One draw, whatever the size of the tree. -/
def selectWeightedHeader (f : Frame) (depth : MutationDepth) : Draw (Option Header) := do
  let total := headerWeight depth (f.visit "root" 0)
  if total = 0 then return none
  else
    let remaining ← genRange 0 total
    return weightedHeader depth (f.visit "root" 0) 0 remaining

/-- One header that is a target, with a weight for its depth. -/
def selectHeader (f : Frame) (target : Target) (depth : MutationDepth) : Draw (Option Header) :=
  if target = .any ∧ depth = .inner then selectWeightedHeader f depth
  else reservoir target (f.visit "root" 0) 0 0 none

/-- The deepest level of any frame; a scalar root is zero. -/
def treeDepth (f : Frame) : Nat :=
  (f.visit "root" 0).foldl (fun deepest v => max deepest v.level) 0

/-! ## Overwriting it -/

/-- One of the values, or the next one where it is the current length. -/
def chooseDifferent (original : Int) (values : List Int) : Draw String := do
  let index ← genRange 0 values.length
  let value := values.getD index 0
  return toString (if value = original then values.getD ((index + 1) % values.length) 0 else value)

/-- The text in place of a length. -/
def corruptLength (original : Int) : LengthCorruption → Draw String
  | .shorter => return toString (original - 1)
  | .longer => return toString (original + 1)
  | .negative => chooseDifferent original [-2, -3, -9223372036854775808]
  | .boundary =>
      chooseDifferent original
        [0, 1, 2147483647, 2147483648, 4294967295, 4294967296, 9223372036854775807,
          18446744073709551615]
  | .overflow =>
      Draw.pick
        ["9223372036854775808", "18446744073709551616", "-9223372036854775809",
          "340282366920938463463374607431768211456"]

/-- The configured kind of a length fault, or a random one. -/
def chooseKind : Option LengthCorruption → Draw LengthCorruption
  | some kind => return kind
  | none => Draw.pick [.shorter, .longer, .negative, .boundary, .overflow]

/-- The reply with one header overwritten, and its record. -/
def lengthReply (f : Frame) (header : Header) (kind : LengthCorruption) (replacement : String) :
    MutatedReply where
  bytes := f.encodeWithLength header.index replacement
  mutations := [{
    path := header.path
    kind := .wrongLength
    length := some { kind, original := toString header.original, replacement } }]

/-- The automatic fault, on the root header only. -/
def automaticLength (config : EvilConfig) (f : Frame) : Draw (Option MutatedReply) := do
  if config.mutationCount = .one then return none
  else
    let applies ← shouldApply (config.depth.scale config.probability 0 (treeDepth f))
    if !applies then return none
    else
      match f.declaredLength with
      | none => return none
      | some original =>
          let header : Header := { index := 0, path := "root", original }
          if config.mode = .overflow then
            return some (lengthReply f header .boundary "9223372036854775807")
          else return some (lengthReply f header .longer (toString (original + 1)))

/-- The configured fault, on any header its target matches. -/
def focusedLength (config : EvilConfig) (options : LengthConfig) (f : Frame) :
    Draw (Option MutatedReply) := do
  let applies ← shouldApply options.probability
  if !applies then return none
  else
    match ← selectHeader f options.target config.depth with
    | none => return none
    | some header =>
        let kind ← chooseKind options.kind
        let replacement ← corruptLength header.original kind
        return some (lengthReply f header kind replacement)

/-- A reply with one length fault, if it is drawn and there is a header for it. -/
def mutateLength (config : EvilConfig) (f : Frame) : Draw (Option MutatedReply) :=
  match config.framing with
  | .off => return none
  | .auto => automaticLength config f
  | .length options => focusedLength config options f

/-! ## One header is overwritten -/

/-- A header that belongs to one of the visited frames, counted from an index on. -/
def Header.Names (visited : List Frame.Visited) (start : Nat) (header : Header) : Prop :=
  ∃ k v, visited[k]? = some v ∧ header.index = start + k ∧ header.path = v.path ∧
    v.frame.declaredLength = some header.original

theorem Header.Names.cons {visited : List Frame.Visited} {start : Nat} {header : Header}
    (h : header.Names visited (start + 1)) (v : Frame.Visited) :
    header.Names (v :: visited) start := by
  obtain ⟨k, w, hk, hindex, hpath, hlength⟩ := h
  exact ⟨k + 1, w, by simpa using hk, by omega, hpath, hlength⟩

theorem safe_keepCandidate (candidates : Nat) : (keepCandidate (candidates + 1)).Safe := by
  unfold keepCandidate
  split
  · trivial
  · exact Draw.safe_map (all_genRange (by omega) fun _ _ _ => trivial)

/-- The reservoir selects a header of a visited frame, or keeps what it had. -/
theorem all_reservoir {P : Option Header → Prop} (target : Target) (visited : List Frame.Visited) :
    ∀ start candidates selected, P selected →
      (∀ header : Header, header.Names visited start → P (some header)) →
      (reservoir target visited start candidates selected).All P := by
  induction visited with
  | nil =>
      intro start candidates selected hselected _
      exact hselected
  | cons v visited ih =>
      intro start candidates selected hselected hnames
      have hrest : ∀ header : Header, header.Names visited (start + 1) → P (some header) :=
        fun header h => hnames header (h.cons v)
      unfold reservoir
      split
      · rename_i original horiginal
        split
        · refine Draw.all_bind.mpr ((safe_keepCandidate candidates).all fun keep => ?_)
          apply ih _ _ _ _ hrest
          split
          · exact hnames _ ⟨0, v, rfl, rfl, rfl, horiginal⟩
          · exact hselected
        · exact ih _ _ _ hselected hrest
      · exact ih _ _ _ hselected hrest

theorem weightedHeader_names {depth : MutationDepth} {header : Header}
    {visited : List Frame.Visited} :
    ∀ {start remaining}, weightedHeader depth visited start remaining = some header →
      header.Names visited start := by
  induction visited with
  | nil =>
      intro start remaining h
      cases h
  | cons v visited ih =>
      intro start remaining h
      unfold weightedHeader at h
      split at h
      · rename_i original horiginal
        simp only at h
        split at h
        · obtain rfl := Option.some.inj h
          exact ⟨0, v, rfl, rfl, rfl, horiginal⟩
        · exact (ih h).cons v
      · exact (ih h).cons v

theorem all_selectHeader (f : Frame) (target : Target) (depth : MutationDepth) :
    (selectHeader f target depth).All fun selected =>
      ∀ header ∈ selected, header.Names (f.visit "root" 0) 0 := by
  unfold selectHeader
  split
  · unfold selectWeightedHeader
    simp only
    split
    · simp
    · rename_i htotal
      refine Draw.all_bind.mpr (all_genRange (Nat.pos_of_ne_zero htotal) fun remaining _ _ => ?_)
      intro header hheader
      exact weightedHeader_names hheader
  · apply all_reservoir
    · simp
    · intro header hnames header' hheader
      obtain rfl := Option.some.inj hheader
      exact hnames

/-- The record of an overwritten header: the frame it names, and the bytes with other
digits in the header of that frame. -/
def Overwrites (f : Frame) (record : AppliedMutation) (bytes : Bytes) : Prop :=
  ∃ p g original kind replacement, f.at? p = some g ∧ g.declaredLength = some original ∧
    record = {
      path := pathText p
      kind := .wrongLength
      length := some { kind, original := toString original, replacement } } ∧
    Frame.Spliced f.encode g original replacement bytes

theorem overwrites_lengthReply {f : Frame} {header : Header}
    (h : header.Names (f.visit "root" 0) 0) (kind : LengthCorruption) (replacement : String) :
    ∃ p g, f.at? p = some g ∧ g.declaredLength = some header.original ∧
      header.path = pathText p ∧
      Frame.SplicedAfter (f.bytesBefore p) f.encode g header.original replacement
        (lengthReply f header kind replacement).bytes := by
  rcases h with ⟨k, v, hk, hindex, hpath, hlength⟩
  have hsplice : ∃ p, f.at? p = some v.frame ∧ v.path = pathText ([] ++ p) ∧
      Frame.SplicedAfter (f.bytesBefore p) f.encode v.frame header.original replacement
        (f.encodeInto (Frame.overrideAt (0 + k) replacement) 0).1 :=
    Frame.encodeInto_splice f hlength k [] 0 0 hk
  rcases hsplice with ⟨p, hp, hpathText, hbytes⟩
  rw [← hindex] at hbytes
  exact ⟨p, v.frame, hp, hlength, hpath.trans hpathText, hbytes⟩

theorem safe_chooseKind (kind : Option LengthCorruption) : (chooseKind kind).Safe := by
  cases kind with
  | none => exact Draw.safe_pick (by simp)
  | some kind => trivial

/-- The root comes first. -/
theorem names_root {f : Frame} {original : Int} (h : f.declaredLength = some original) :
    ({ index := 0, path := "root", original } : Header).Names (f.visit "root" 0) 0 := by
  refine ⟨0, { frame := f, path := "root", level := 0 }, ?_, rfl, rfl, h⟩
  rw [Frame.visit_eq]
  rfl

/-- The outcomes of a length fault, from a postcondition of its replacements. -/
theorem all_mutateLength_of {Q : Int → LengthCorruption → String → Prop} (config : EvilConfig)
    (f : Frame)
    (hroot : ∀ original, f.declaredLength = some original →
      Q original .boundary "9223372036854775807" ∧
        Q original .longer (toString (original + 1)))
    (hcorrupt : ∀ header : Header, header.Names (f.visit "root" 0) 0 →
      ∀ kind, (corruptLength header.original kind).All (Q header.original kind)) :
    (mutateLength config f).All fun reply => ∀ r ∈ reply,
      ∃ (header : Header) (kind : LengthCorruption) (replacement : String),
        header.Names (f.visit "root" 0) 0 ∧ Q header.original kind replacement ∧
          r = lengthReply f header kind replacement := by
  unfold mutateLength
  split
  · simp
  · unfold automaticLength
    split
    · simp
    refine Draw.all_bind.mpr ((safe_shouldApply _).all fun applies => ?_)
    split
    · simp
    split
    · simp
    · rename_i original horiginal
      have hQ := hroot original horiginal
      split
      · intro r hr
        cases hr
        exact ⟨_, _, _, names_root horiginal, hQ.1, rfl⟩
      · intro r hr
        cases hr
        exact ⟨_, _, _, names_root horiginal, hQ.2, rfl⟩
  · rename_i options _
    refine Draw.all_bind.mpr ((safe_shouldApply options.probability).all fun applies => ?_)
    split
    · simp
    refine Draw.all_bind.mpr (Draw.all_mono (all_selectHeader f _ _) fun selected hselected => ?_)
    split
    · simp
    · rename_i header
      refine Draw.all_bind.mpr ((safe_chooseKind _).all fun kind => ?_)
      have hnames := hselected header rfl
      refine Draw.all_bind.mpr (Draw.all_mono (hcorrupt header hnames kind) fun text hQ => ?_)
      intro r hr
      cases hr
      exact ⟨header, kind, text, hnames, hQ, rfl⟩

theorem safe_chooseDifferent (original : Int) {values : List Int} (h : values ≠ []) :
    (chooseDifferent original values).Safe :=
  Draw.safe_bind (all_genRange (List.length_pos_iff.mpr h) fun _ _ _ => trivial) fun _ => trivial

theorem safe_corruptLength (original : Int) (kind : LengthCorruption) :
    (corruptLength original kind).Safe := by
  cases kind with
  | shorter => trivial
  | longer => trivial
  | negative => exact safe_chooseDifferent original (by simp)
  | boundary => exact safe_chooseDifferent original (by simp)
  | overflow => exact Draw.safe_pick (by simp)

/-- A length fault overwrites exactly one header, and its record names it. -/
theorem all_mutateLength (config : EvilConfig) (f : Frame) :
    (mutateLength config f).All fun reply =>
      ∀ r ∈ reply, ∃ record, r.mutations = [record] ∧ Overwrites f record r.bytes := by
  have hall := all_mutateLength_of (Q := fun _ _ _ => True) config f
    (fun _ _ => ⟨trivial, trivial⟩) fun header _ kind => safe_corruptLength header.original kind
  refine Draw.all_mono hall fun reply hreply r hr => ?_
  rcases hreply r hr with ⟨header, kind, replacement, hnames, -, rfl⟩
  rcases overwrites_lengthReply hnames kind replacement with ⟨p, g, hp, hlength, hpath, hbytes⟩
  exact ⟨_, rfl, p, g, header.original, kind, replacement, hp, hlength, by rw [hpath],
    hbytes.spliced⟩

/-! ## Replacements -/

/-- What the new digits of a header are, for each kind of fault. -/
def LengthCorruption.Obeys (original : Int) (replacement : String) : LengthCorruption → Prop
  | .shorter => replacement = toString (original - 1)
  | .longer => replacement = toString (original + 1)
  | .negative => ∃ n : Int, n < -1 ∧ replacement = toString n
  | .boundary => ∃ n : Int, 0 ≤ n ∧ replacement = toString n
  | .overflow => ∃ n : Int, (n < -2 ^ 63 ∨ 2 ^ 63 ≤ n) ∧ replacement = toString n

/-- New digits of a kind, which are not the old ones. -/
structure Corrupts (original : Int) (kind : LengthCorruption) (replacement : String) : Prop where
  obeys : kind.Obeys original replacement
  ne : replacement ≠ toString original

theorem toString_ne {m n : Int} (h : m ≠ n) : toString m ≠ toString n :=
  fun heq => h (Frame.toString_int_injective heq)

/-- Of two neighbours in a list without repetitions one differs from the length. -/
theorem all_chooseDifferent {P : Int → Prop} (original : Int) (values : List Int)
    (hlength : 1 < values.length) (hnodup : values.Nodup) (hP : ∀ n ∈ values, P n) :
    (chooseDifferent original values).All fun text =>
      ∃ n, P n ∧ n ≠ original ∧ text = toString n := by
  unfold chooseDifferent
  refine Draw.all_bind.mpr (all_genRange (by omega) fun index _ hindex => ?_)
  have hnext : (index + 1) % values.length < values.length := Nat.mod_lt _ (by omega)
  have hget {i : Nat} (hi : i < values.length) : values.getD i 0 ∈ values := by
    rw [List.getD_eq_getElem?_getD, List.getElem?_eq_getElem hi]
    exact List.getElem_mem hi
  by_cases hsame : values.getD index 0 = original
  · refine ⟨values.getD ((index + 1) % values.length) 0, hP _ (hget hnext), ?_, ?_⟩
    · rw [← hsame, List.getD_eq_getElem?_getD, List.getElem?_eq_getElem hnext,
        List.getD_eq_getElem?_getD, List.getElem?_eq_getElem hindex, Option.getD_some,
        Option.getD_some, Ne, hnodup.getElem_inj_iff]
      intro heq
      by_cases hlast : index + 1 = values.length
      · rw [hlast, Nat.mod_self] at heq
        omega
      · rw [Nat.mod_eq_of_lt (by omega)] at heq
        omega
    · exact congrArg toString (if_pos hsame)
  · exact ⟨values.getD index 0, hP _ (hget hindex), hsame, congrArg toString (if_neg hsame)⟩

/-- Lengths below the largest signed integer are always replaced by something else. -/
theorem all_corruptLength {original : Int} (hlow : -1 ≤ original) (hhigh : original < 2 ^ 63 - 1)
    (kind : LengthCorruption) : (corruptLength original kind).All (Corrupts original kind) := by
  cases kind with
  | shorter => exact ⟨rfl, toString_ne (by omega)⟩
  | longer => exact ⟨rfl, toString_ne (by omega)⟩
  | negative =>
      have hchoose := all_chooseDifferent (P := fun n => n < -1) original
        [-2, -3, -9223372036854775808] (by simp) (by simp) (by simp)
      refine Draw.all_mono hchoose fun text ⟨n, hn, hne, htext⟩ => ?_
      exact ⟨⟨n, hn, htext⟩, htext ▸ toString_ne hne⟩
  | boundary =>
      have hchoose := all_chooseDifferent (P := fun n => 0 ≤ n) original
        [0, 1, 2147483647, 2147483648, 4294967295, 4294967296, 9223372036854775807,
          18446744073709551615] (by simp) (by simp) (by simp)
      refine Draw.all_mono hchoose fun text ⟨n, hn, hne, htext⟩ => ?_
      exact ⟨⟨n, hn, htext⟩, htext ▸ toString_ne hne⟩
  | overflow =>
      have hvalues : ∀ n ∈ [(9223372036854775808 : Int), 18446744073709551616,
          -9223372036854775809, 340282366920938463463374607431768211456],
          Corrupts original .overflow (toString n) := by
        intro n hn
        have hout : n < -2 ^ 63 ∨ 2 ^ 63 ≤ n := by
          simp only [List.mem_cons, List.not_mem_nil, or_false] at hn
          omega
        exact ⟨⟨n, hout, rfl⟩, toString_ne (by omega)⟩
      refine Draw.all_pick.mpr ⟨by simp, ?_⟩
      intro text htext
      have hmem : text ∈ [(9223372036854775808 : Int), 18446744073709551616,
          -9223372036854775809, 340282366920938463463374607431768211456].map toString := htext
      rcases List.mem_map.mp hmem with ⟨n, hn, rfl⟩
      exact hvalues n hn

/-! ## Selection -/

/-- Some header of the tree matches a target. -/
def HasHeader (f : Frame) (target : Target) : Prop :=
  ∃ p g, f.at? p = some g ∧ g.declaredLength.isSome ∧ target.pathMatches (pathText p)

theorem hasHeader_iff {f : Frame} {target : Target} :
    HasHeader f target ↔ ∃ v ∈ f.visit "root" 0,
      v.frame.declaredLength.isSome ∧ target.pathMatches v.path := by
  have hroot : f.visit "root" 0 = f.visit (pathText []) 0 := rfl
  rw [hroot]
  constructor
  · rintro ⟨p, g, hp, hlength, hmatches⟩
    have hmem : ({ frame := g, path := pathText p, level := p.length } : Frame.Visited) ∈
        f.visit (pathText []) 0 := Frame.mem_visit.mpr ⟨p, hp, rfl, by simp⟩
    exact ⟨_, hmem, hlength, hmatches⟩
  · rintro ⟨v, hv, hlength, hmatches⟩
    rcases Frame.mem_visit.mp hv with ⟨p, hp, hpath, -⟩
    exact ⟨p, v.frame, hp, hlength, by rwa [hpath] at hmatches⟩

/-- The reservoir is filled by the first candidate and never emptied. -/
theorem all_reservoir_isSome (target : Target) (visited : List Frame.Visited) :
    ∀ (start candidates : Nat) (selected : Option Header), (0 < candidates ↔ selected.isSome) →
      (reservoir target visited start candidates selected).All fun result =>
        result.isSome ↔ selected.isSome ∨
          ∃ v ∈ visited, v.frame.declaredLength.isSome ∧ target.pathMatches v.path := by
  induction visited with
  | nil =>
      intro start candidates selected _
      simp [reservoir]
  | cons v visited ih =>
      intro start candidates selected hcount
      unfold reservoir
      split
      · rename_i original horiginal
        by_cases hmatches : target.pathMatches v.path = true
        · rw [if_pos hmatches]
          have hkeep : (keepCandidate (candidates + 1)).All fun keep =>
              candidates = 0 → keep = true := by
            unfold keepCandidate
            split
            · simp
            · exact (Draw.safe_map (all_genRange (by omega) fun _ _ _ => trivial)).all
                fun keep hzero => by omega
          refine Draw.all_bind.mpr (Draw.all_mono hkeep fun keep hkeep => ?_)
          have hsome : (if keep then some { index := start, path := v.path, original }
              else selected : Option Header).isSome = true := by
            split
            · rfl
            · rename_i hdropped
              exact hcount.mp (Nat.pos_of_ne_zero fun hzero => hdropped (hkeep hzero))
          refine Draw.all_mono (ih _ _ _ ⟨fun _ => hsome, fun _ => by omega⟩) fun result hresult => ?_
          simp [hresult, hsome, horiginal, hmatches]
        · rw [if_neg hmatches]
          refine Draw.all_mono (ih _ _ _ hcount) fun result hresult => ?_
          simp [hresult, hmatches]
      · rename_i hnone
        refine Draw.all_mono (ih _ _ _ hcount) fun result hresult => ?_
        simp [hresult, hnone]

/-- A remainder below the weight of all headers falls on one of them. -/
theorem weightedHeader_isSome {depth : MutationDepth} {visited : List Frame.Visited} :
    ∀ {start remaining}, remaining < headerWeight depth visited →
      (weightedHeader depth visited start remaining).isSome := by
  induction visited with
  | nil =>
      intro start remaining h
      simp [headerWeight] at h
  | cons v visited ih =>
      intro start remaining h
      rw [headerWeight, List.map_cons, List.sum_cons] at h
      unfold weightedHeader
      split
      · rename_i original horiginal
        simp only [horiginal, Option.isSome_some, if_true] at h
        by_cases hhere : remaining < depth.weight v.level
        · simp [hhere]
        · simp only [if_neg hhere]
          refine ih ?_
          rw [headerWeight]
          omega
      · rename_i hnone
        simp only [hnone, Option.isSome_none, Bool.false_eq_true, if_false, Nat.zero_add] at h
        exact ih h

theorem headerWeight_eq_zero_iff {depth : MutationDepth} {visited : List Frame.Visited} :
    headerWeight depth visited = 0 ↔ ¬ ∃ v ∈ visited, v.frame.declaredLength.isSome := by
  rw [headerWeight, List.sum_eq_zero_iff]
  simp only [List.mem_map, forall_exists_index, and_imp, forall_apply_eq_imp_iff₂, not_exists,
    not_and]
  refine forall₂_congr fun v _ => ?_
  have hpos := weight_pos depth v.level
  by_cases hlength : v.frame.declaredLength.isSome = true
  · rw [if_pos hlength]
    simp only [hlength, not_true_eq_false, iff_false]
    omega
  · simp [hlength]

/-- A header is selected if and only if some header matches. -/
theorem all_selectHeader_isSome (f : Frame) (target : Target) (depth : MutationDepth) :
    (selectHeader f target depth).All fun selected => selected.isSome ↔ HasHeader f target := by
  unfold selectHeader
  simp only [hasHeader_iff]
  split
  · rename_i hinner
    simp only [hinner.1, Target.pathMatches, and_true]
    unfold selectWeightedHeader
    simp only
    split
    · rename_i hzero
      simp [headerWeight_eq_zero_iff.mp hzero]
    · rename_i htotal
      refine Draw.all_bind.mpr (all_genRange (Nat.pos_of_ne_zero htotal) fun remaining _ hlt => ?_)
      have hsome := not_not.mp (mt headerWeight_eq_zero_iff.mpr htotal)
      simp only [Draw.all_done, Draw.pure_eq]
      exact ⟨fun _ => hsome, fun _ => weightedHeader_isSome hlt⟩
  · refine Draw.all_mono (all_reservoir_isSome target _ 0 0 none (by simp)) fun selected hselected => ?_
    simpa using hselected

/-! ## The length fault -/

/-- Every length that the tree declares is below the largest signed integer. -/
def ShortLengths (f : Frame) : Prop :=
  ∀ p g, f.at? p = some g → ∀ n, g.declaredLength = some n → n < 2 ^ 63 - 1

/-- One header of the tree is overwritten in its place.  The position is the only one
with the recorded path. -/
def LengthFault (f : Frame) (reply : MutatedReply) : Prop :=
  ∃ p g original kind replacement,
    reply.mutations = [{
      path := pathText p
      kind := .wrongLength
      length := some { kind, original := toString original, replacement } }] ∧
    f.at? p = some g ∧ (∀ q, pathText q = pathText p → q = p) ∧
    g.declaredLength = some original ∧
    Frame.SplicedAfter (f.bytesBefore p) f.encode g original replacement reply.bytes ∧
    Corrupts original kind replacement

theorem declaredLength_ge {f : Frame} {n : Int} (h : f.declaredLength = some n) : -1 ≤ n := by
  cases f with
  | bulkString bytes => cases bytes <;> cases h <;> omega
  | array items => cases items <;> cases h <;> omega
  | _ => cases h <;> omega

/-- A length fault overwrites one header in its place. -/
theorem all_lengthFault (config : EvilConfig) {f : Frame} (h : ShortLengths f) :
    (mutateLength config f).All fun reply => ∀ r ∈ reply, LengthFault f r := by
  have hnames : ∀ header : Header, header.Names (f.visit "root" 0) 0 →
      -1 ≤ header.original ∧ header.original < 2 ^ 63 - 1 := by
    rintro header ⟨k, v, hk, -, -, hlength⟩
    have hmem : v ∈ f.visit (pathText []) 0 := List.mem_of_getElem? hk
    rcases Frame.mem_visit.mp hmem with ⟨p, hp, -, -⟩
    exact ⟨declaredLength_ge hlength, h p v.frame hp _ hlength⟩
  have hroot : ∀ original, f.declaredLength = some original →
      Corrupts original .boundary "9223372036854775807" ∧
        Corrupts original .longer (toString (original + 1)) := by
    intro original horiginal
    have hsmall := (hnames _ (names_root horiginal)).2
    have htext : "9223372036854775807" = toString (9223372036854775807 : Int) := rfl
    constructor
    · rw [htext]
      exact ⟨⟨9223372036854775807, by omega, rfl⟩, toString_ne (by simp only at hsmall; omega)⟩
    · exact ⟨rfl, toString_ne (by omega)⟩
  refine Draw.all_mono (all_mutateLength_of config f hroot fun header hheader kind =>
    all_corruptLength (hnames header hheader).1 (hnames header hheader).2 kind) ?_
  intro reply hreply r hr
  rcases hreply r hr with ⟨header, kind, replacement, hheader, hcorrupts, rfl⟩
  rcases overwrites_lengthReply hheader kind replacement with ⟨p, g, hp, hlength, hpath, hbytes⟩
  exact ⟨p, g, header.original, kind, replacement, by rw [← hpath]; rfl, hp,
    fun q hq => pathText_injective hq, hlength, hbytes, hcorrupts⟩

/-- A length fault overwrites one header in its place with a different number of the
recorded kind.  The configured fault happens exactly when the probability draw succeeds
and some header matches. -/
theorem mutateLength_spliced (config : EvilConfig) (f : Frame) (h : ShortLengths f) :
    ((mutateLength config f).All fun reply => ∀ r ∈ reply, LengthFault f r) ∧
      ∀ options, config.framing = .length options →
        ∃ select, mutateLength config f = (shouldApply options.probability >>= select) ∧
          ∀ applies, (select applies).All fun reply =>
            reply.isSome ↔ applies = true ∧ HasHeader f options.target := by
  constructor
  · exact all_lengthFault config h
  · intro options hoptions
    unfold mutateLength
    rw [hoptions]
    refine ⟨_, rfl, fun applies => ?_⟩
    cases applies with
    | false => simp
    | true =>
        simp only [Bool.not_true, Bool.false_eq_true, if_false]
        refine Draw.all_bind.mpr (Draw.all_mono (all_selectHeader_isSome f _ _) fun selected hsome => ?_)
        split
        · simpa using hsome
        · refine Draw.all_bind.mpr ((safe_chooseKind _).all fun kind => ?_)
          refine Draw.all_bind.mpr ((safe_corruptLength _ _).all fun replacement => ?_)
          simpa using hsome

/-- A bulk string whose body looks like a header. -/
theorem mutateLength_spliced_bulk :
    ((mutateLength { framing := .length {} } (.bulkString (some (asBytes "$4")))).All fun reply =>
        ∀ r ∈ reply, LengthFault (.bulkString (some (asBytes "$4"))) r) ∧
      ∀ options, (FramingConfig.length {}) = .length options →
        ∃ select, mutateLength { framing := .length {} } (.bulkString (some (asBytes "$4"))) =
            (shouldApply options.probability >>= select) ∧
          ∀ applies, (select applies).All fun reply => reply.isSome ↔
            applies = true ∧ HasHeader (.bulkString (some (asBytes "$4"))) options.target := by
  refine mutateLength_spliced { framing := .length {} } (.bulkString (some (asBytes "$4"))) ?_
  intro p g hp n hn
  cases p with
  | nil =>
      cases hp
      cases hn
      decide
  | cons step p => cases hp

end EvilResp
