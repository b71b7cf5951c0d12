import EvilResp.Mutation.Canonical
import EvilResp.Resp.Path

/-!
# Canonical forms are settled

Canonicalization only reorders: whole children where their order carries no meaning, and
pairs together.  What was sorted once stays sorted, so a second pass changes nothing.

Main results:

- Theorem {lit}`reordered_fold`: the containers of a frame are only reordered.
- Theorem {lit}`fold_arrange_idem`: sorting the containers again changes nothing.
- Theorem {lit}`canonicalize_settles`: the same of replies to commands and transactions.
-/

namespace EvilResp

open Library
open EvilResp.Resp
open EvilResp.Resp.Frame

variable {mode : CanonicalizationMode}

/-! ## Containers are only reordered -/

theorem rebuild_rebuild (f : Frame) (old new : List Frame) :
    (f.rebuild old).rebuild new = f.rebuild new := by
  cases f with
  | array items => cases items <;> rfl
  | _ => rfl

/-- The children are replaced one after another. -/
theorem reordered_children {φ : Frame → Frame} {items : List Frame} :
    ∀ {f : Frame} (before : List Frame), f.children = before ++ items →
      (∀ c ∈ items, Reordered mode c (φ c)) →
      Reordered mode f (f.rebuild (before ++ items.map φ)) := by
  induction items with
  | nil =>
      intro f before hchildren _
      rw [List.map_nil, ← hchildren, rebuild_children]
      exact .refl f
  | cons c items ih =>
      intro f before hchildren hitems
      rcases List.forall_mem_cons.mp hitems with ⟨hc, hrest⟩
      have hlength : (before ++ φ c :: items).length = f.children.length := by
        simp [hchildren]
      have hnext : (f.rebuild (before ++ φ c :: items)).children =
          (before ++ [φ c]) ++ items := by
        rw [children_rebuild hlength]
        simp
      have hlater := ih _ hnext hrest
      rw [rebuild_rebuild, List.append_assoc, List.singleton_append] at hlater
      exact .trans (.child hchildren hc) hlater

/-- Canonical children are put in order. -/
theorem reordered_arrange (f : Frame) (items : List Frame) :
    Reordered mode (f.rebuild items) (arrange mode f items) := by
  have hitems := (perm_sortByKey sortKey items).symm
  have hpairs := (perm_sortPairsByKey sortKey (pairUp items)).symm
  cases f with
  | array old =>
      cases old with
      | none => exact .refl _
      | some old =>
          by_cases hall : mode = .all
          · rw [arrange, if_pos hall]
            exact .array hall hitems
          · rw [arrange, if_neg hall]
            exact .refl _
  | push old =>
      by_cases hall : mode = .all
      · rw [arrange, if_pos hall]
        exact .push hall hitems
      · rw [arrange, if_neg hall]
        exact .refl _
  | set old => exact .set hitems
  | map old => exact .map hpairs
  | «attribute» old => exact .attribute hpairs
  | _ => exact .refl _

/-- The containers of a frame are only reordered. -/
theorem reordered_fold (f : Frame) : Reordered mode f (fold (arrange mode) f) := by
  induction f using childInduction with
  | step f ih =>
      rw [fold_eq]
      exact .trans (reordered_children [] rfl ih) (reordered_arrange f _)

/-! ## Sorting again -/

/-- The children of a frame that was arranged are those that were put back. -/
theorem mem_children_arrange {f c : Frame} {items : List Frame} (hleaf : f.children = [] → items = [])
    (h : c ∈ (arrange mode f items).children) : c ∈ items := by
  have hpairs : c ∈ (sortPairs (pairUp items)).flatMap (fun pair => [pair.1, pair.2]) →
      c ∈ items := by
    intro hc
    rcases mem_pairs.mp hc with ⟨pair, hpair, hmember⟩
    rcases mem_pairUp (mem_sortPairs.mp hpair) with ⟨hkey, hvalue⟩
    rcases hmember with rfl | rfl
    · exact hkey
    · exact hvalue
  have hsequence : c ∈ (if mode = .all then sortItems items else items) → c ∈ items := by
    intro hc
    split at hc
    · exact mem_sortItems.mp hc
    · exact hc
  cases f with
  | array old =>
      cases old with
      | none => cases h
      | some old => exact hsequence h
  | push old => exact hsequence h
  | set old => exact mem_sortItems.mp h
  | map old => exact hpairs h
  | «attribute» old => exact hpairs h
  | _ => cases h

theorem sortItems_sortItems (items : List Frame) : sortItems (sortItems items) = sortItems items :=
  sortByKey_sortByKey sortKey items

theorem sortPairs_sortPairs (pairs : List (Frame × Frame)) :
    sortPairs (sortPairs pairs) = sortPairs pairs :=
  sortPairsByKey_sortPairsByKey sortKey pairs

/-- Children that are in order are left in order. -/
theorem arrange_arrange (f : Frame) (items : List Frame) :
    arrange mode (arrange mode f items) (arrange mode f items).children =
      arrange mode f items := by
  cases f with
  | array old =>
      cases old with
      | none => rfl
      | some old =>
          by_cases hall : mode = .all
          · simp only [arrange, children, if_pos hall, sortItems_sortItems]
          · simp only [arrange, children, if_neg hall]
  | push old =>
      by_cases hall : mode = .all
      · simp only [arrange, children, if_pos hall, sortItems_sortItems]
      · simp only [arrange, children, if_neg hall]
  | set old => simp only [arrange, children, sortItems_sortItems]
  | map old => simp only [arrange, children, pairUp_flatMap, sortPairs_sortPairs]
  | «attribute» old => simp only [arrange, children, pairUp_flatMap, sortPairs_sortPairs]
  | _ => rfl

/-- Sorting the containers again changes nothing. -/
theorem fold_arrange_idem (f : Frame) :
    fold (arrange mode) (fold (arrange mode) f) = fold (arrange mode) f := by
  induction f using childInduction with
  | step f ih =>
      rw [fold_eq _ f]
      have hsettled : (arrange mode f (f.children.map (fold (arrange mode)))).children.map
          (fold (arrange mode)) =
            (arrange mode f (f.children.map (fold (arrange mode)))).children := by
        refine List.map_congr_left (g := id) (fun c hc => ?_) |>.trans (List.map_id _)
        rcases List.mem_map.mp (mem_children_arrange (by simp) hc) with ⟨d, hd, rfl⟩
        exact ih d hd
      rw [fold_eq, hsettled, arrange_arrange]

/-! ## Replies to commands -/

/-- The order of the children does not change what is written before them. -/
theorem length_encode_of_perm {f g : Frame} (hhead : g.head none = f.head none)
    (hperm : f.children.Perm g.children) : g.encode.length = f.encode.length := by
  rw [encode_eq f, encode_eq g, List.length_append, List.length_append, hhead]
  have hlength := (hperm.flatMap_right Frame.encode).length_eq
  omega

/-- Reordering keeps the length of the encoding. -/
theorem Reordered.length_encode {f g : Frame} (h : Reordered mode f g) :
    g.encode.length = f.encode.length := by
  induction h with
  | refl f => rfl
  | trans _ _ ih₁ ih₂ => exact ih₂.trans ih₁
  | @child f c d before after hchildren _ ih =>
      have hlength : (before ++ d :: after).length = f.children.length := by
        simp [hchildren]
      rw [encode_eq f, encode_eq (f.rebuild _), (sameShell_rebuild hlength).head_eq,
        children_rebuild hlength, hchildren]
      simp [ih]
  | array _ hperm => exact length_encode_of_perm (by simp [head, hperm.length_eq]) hperm
  | push _ hperm => exact length_encode_of_perm (by simp [head, hperm.length_eq]) hperm
  | set hperm => exact length_encode_of_perm (by simp [head, hperm.length_eq]) hperm
  | map hperm =>
      exact length_encode_of_perm (by simp [head, hperm.length_eq]) (perm_flatten hperm)
  | «attribute» hperm =>
      exact length_encode_of_perm (by simp [head, hperm.length_eq]) (perm_flatten hperm)

variable {command : Option String}

theorem ReorderedReply.length_encode {f g : Frame} (h : ReorderedReply mode command f g) :
    g.encode.length = f.encode.length := by
  induction h with
  | nested h => exact h.length_encode
  | trans _ _ ih₁ ih₂ => exact ih₂.trans ih₁
  | items _ _ _ hperm => exact length_encode_of_perm (by simp [head, hperm.length_eq]) hperm
  | @pairs ps qs remainder _ _ hperm _ =>
      have hflat := (perm_flatten hperm).append_right remainder
      exact length_encode_of_perm (by simp only [head, hflat.length_eq]) hflat

/-- The pairs of a list in order. -/
def sortedPairs (items : List Frame) : List Frame :=
  (sortPairs (asChunks2 items).1).flatMap (fun pair => [pair.1, pair.2]) ++ (asChunks2 items).2

theorem sortedPairs_sortedPairs (items : List Frame) :
    sortedPairs (sortedPairs items) = sortedPairs items := by
  have hchunks := asChunks2_flatten (flatten_asChunks2 items).2 (sortPairs (asChunks2 items).1)
  rw [sortedPairs, sortedPairs, hchunks, sortPairs_sortPairs]

theorem mem_sortedPairs {items : List Frame} {c : Frame} (h : c ∈ sortedPairs items) :
    c ∈ items := by
  rw [← (flatten_asChunks2 items).1]
  rcases List.mem_append.mp h with hpairs | hremainder
  · rcases mem_pairs.mp hpairs with ⟨pair, hpair, hmember⟩
    exact List.mem_append_left _ (mem_pairs.mpr ⟨pair, mem_sortPairs.mp hpair, hmember⟩)
  · exact List.mem_append_right _ hremainder

/-- Unordered containers of the members are in order. -/
def Settled (items : List Frame) : Prop :=
  ∀ c ∈ items, canonicalizeUnorderedContainers c = c

theorem Settled.map_eq {items : List Frame} (h : Settled items) :
    items.map canonicalizeUnorderedContainers = items :=
  (List.map_congr_left h).trans (List.map_id' items)

theorem Settled.array {items : List Frame} (h : Settled items) :
    canonicalizeUnorderedContainers (.array (some items)) = .array (some items) := by
  rw [canonicalizeUnorderedContainers_array, h.map_eq]

theorem settled_of_array {f : Frame} {items : List Frame}
    (h : canonicalizeUnorderedContainers f = .array (some items)) : Settled items := by
  have hidem : canonicalizeUnorderedContainers (canonicalizeUnorderedContainers f) =
      canonicalizeUnorderedContainers f := fold_arrange_idem f
  rw [h, canonicalizeUnorderedContainers_array] at hidem
  have hmap := Option.some.inj (Frame.array.inj hidem)
  nth_rewrite 2 [← List.map_id items] at hmap
  exact List.map_inj_left.mp hmap

/-- What a command adds to the sorting of unordered containers. -/
theorem canonicalizeUnorderedReply_cases (command : Option String) :
    command.map toAsciiUppercase = some "HGETALL" ∨
      (∃ name ∈ unorderedItems, command.map toAsciiUppercase = some name) ∨
        ∀ f, canonicalizeUnorderedReply command f = canonicalizeUnorderedContainers f := by
  by_cases hpairs : command.map toAsciiUppercase = some "HGETALL"
  · exact .inl hpairs
  · by_cases hitems : ∃ name ∈ unorderedItems, command.map toAsciiUppercase = some name
    · exact .inr (.inl hitems)
    · refine .inr (.inr fun f => ?_)
      unfold canonicalizeUnorderedReply
      dsimp only
      split
      case h_1 hname => exact absurd hname hpairs
      case h_8 => rfl
      all_goals
        rename_i hname
        exact absurd ⟨_, by simp [unorderedItems], hname⟩ hitems

/-- A reply whose canonical form is a reordering of it, and its own canonical form. -/
structure Settles (mode : CanonicalizationMode) (command : Option String) (f : Frame) : Prop where
  reordered : ReorderedReply mode command f (canonicalizeReply mode command f)
  again : canonicalizeReply mode command (canonicalizeReply mode command f) =
    canonicalizeReply mode command f

/-- An array as a whole in an order, whose members are settled. -/
def sortWhole (sort : List Frame → List Frame) : Frame → Frame
  | .array (some items) => .array (some (sort items))
  | f => f

theorem canonicalizeArrayItems_eq (f : Frame) :
    canonicalizeArrayItems (canonicalizeUnorderedContainers f) =
      sortWhole sortItems (canonicalizeUnorderedContainers f) := by
  cases hf : canonicalizeUnorderedContainers f with
  | array items =>
      cases items with
      | none => rfl
      | some items => rw [canonicalizeArrayItems, (settled_of_array hf).map_eq, sortWhole]
  | _ => rfl

theorem canonicalizeArrayPairs_eq (f : Frame) :
    canonicalizeArrayPairs (canonicalizeUnorderedContainers f) =
      sortWhole sortedPairs (canonicalizeUnorderedContainers f) := by
  cases hf : canonicalizeUnorderedContainers f with
  | array items =>
      cases items with
      | none => rfl
      | some items =>
          rw [canonicalizeArrayPairs, (settled_of_array hf).map_eq]
          rfl
  | _ => rfl

/-- Sorting an array as a whole leaves its members settled. -/
theorem settles_sortWhole {command : Option String} {sort : List Frame → List Frame}
    (hreply : ∀ f, canonicalizeUnorderedReply command f =
      sortWhole sort (canonicalizeUnorderedContainers f))
    (hmem : ∀ {items c}, c ∈ sort items → c ∈ items)
    (hsort : ∀ items, sort (sort items) = sort items)
    (hreordered : ∀ items, ReorderedReply .unordered command (.array (some items))
      (.array (some (sort items)))) (f : Frame) : Settles .unordered command f := by
  have hnested : ReorderedReply .unordered command f (canonicalizeUnorderedContainers f) :=
    .nested (reordered_fold f)
  have hidem : canonicalizeUnorderedContainers (canonicalizeUnorderedContainers f) =
      canonicalizeUnorderedContainers f := fold_arrange_idem f
  by_cases harray : ∃ items, canonicalizeUnorderedContainers f = .array (some items)
  · rcases harray with ⟨items, harray⟩
    have hsettled : Settled (sort items) := fun c hc => settled_of_array harray c (hmem hc)
    constructor
    · rw [canonicalizeReply, hreply, harray]
      exact .trans (harray ▸ hnested) (hreordered items)
    · rw [canonicalizeReply, canonicalizeReply, hreply f, harray]
      rw [hreply, sortWhole, hsettled.array, sortWhole, hsort]
  · have hsame : sortWhole sort (canonicalizeUnorderedContainers f) =
        canonicalizeUnorderedContainers f := by
      unfold sortWhole
      split
      · rename_i items heq
        exact absurd ⟨items, heq⟩ harray
      · rfl
    constructor
    · rw [canonicalizeReply, hreply, hsame]
      exact hnested
    · rw [canonicalizeReply, canonicalizeReply, hreply f, hsame, hreply, hidem, hsame]

/-- The canonical form of a reply to a command is settled. -/
theorem settles_reply (mode : CanonicalizationMode) (command : Option String) (f : Frame) :
    Settles mode command f := by
  cases mode with
  | none => exact ⟨.nested (.refl f), rfl⟩
  | all => exact ⟨.nested (reordered_fold f), fold_arrange_idem f⟩
  | unordered =>
      rcases canonicalizeUnorderedReply_cases command with hname | ⟨name, hmem, hname⟩ | hplain
      · refine settles_sortWhole (fun f => ?_) mem_sortedPairs sortedPairs_sortedPairs
          (fun items => ?_) f
        · rw [canonicalizeUnorderedReply_pairs hname, canonicalizeArrayPairs_eq]
        · have hpairs := ReorderedReply.pairs rfl hname
            (perm_sortPairsByKey sortKey (asChunks2 items).1).symm (flatten_asChunks2 items).2
          rw [(flatten_asChunks2 items).1] at hpairs
          exact hpairs
      · refine settles_sortWhole (fun f => ?_) mem_sortItems.mp sortItems_sortItems
          (fun items => ?_) f
        · rw [canonicalizeUnorderedReply_items hname hmem, canonicalizeArrayItems_eq]
        · exact .items rfl hname hmem (perm_sortByKey sortKey items).symm
      · constructor
        · rw [canonicalizeReply, hplain]
          exact .nested (reordered_fold f)
        · rw [canonicalizeReply, canonicalizeReply, hplain f, hplain]
          exact fold_arrange_idem f

/-! ## Transactions -/

theorem reordered_results (mode : CanonicalizationMode) (commands : List String) :
    ∀ items, ReorderedItems mode commands items (canonicalizeResults mode commands items) := by
  induction commands with
  | nil =>
      intro items
      exact .rest [] items
  | cons command commands ih =>
      intro items
      cases items with
      | nil => exact .rest _ []
      | cons item items => exact .cons (settles_reply mode (some command) item).reordered (ih items)

theorem canonicalizeResults_idem (mode : CanonicalizationMode) (commands : List String) :
    ∀ items, canonicalizeResults mode commands (canonicalizeResults mode commands items) =
      canonicalizeResults mode commands items := by
  induction commands with
  | nil =>
      intro items
      rfl
  | cons command commands ih =>
      intro items
      cases items with
      | nil => rfl
      | cons item items =>
          rw [canonicalizeResults, canonicalizeResults, ih,
            (settles_reply mode (some command) item).again]

theorem canonicalizeTransactionReply_idem (mode : CanonicalizationMode) (commands : List String)
    (f : Frame) :
    canonicalizeTransactionReply mode commands (canonicalizeTransactionReply mode commands f) =
      canonicalizeTransactionReply mode commands f := by
  cases f with
  | array items =>
      cases items with
      | none => rfl
      | some items =>
          rw [canonicalizeTransactionReply, canonicalizeTransactionReply, canonicalizeResults_idem]
  | _ => rfl

theorem ReorderedItems.length_encode {mode : CanonicalizationMode} {commands : List String}
    {fs gs : List Frame} (h : ReorderedItems mode commands fs gs) :
    gs.length = fs.length ∧
      (gs.flatMap Frame.encode).length = (fs.flatMap Frame.encode).length := by
  induction h with
  | rest commands items => exact ⟨rfl, rfl⟩
  | cons hitem _ ih =>
      have hlength := hitem.length_encode
      simp only [List.length_cons, List.flatMap_cons, List.length_append]
      omega

theorem ReorderedResults.length_encode {mode : CanonicalizationMode} {commands : List String}
    {f g : Frame} (h : ReorderedResults mode commands f g) :
    g.encode.length = f.encode.length := by
  cases h with
  | refl => rfl
  | @array xs ys hitems =>
      rcases hitems.length_encode with ⟨hcount, hbytes⟩
      rw [encode_eq, encode_eq, List.length_append, List.length_append]
      simp only [children, head, hcount, hbytes]

/-- Canonicalization only reorders what carries no order, keeps the length of the encoding,
and changes nothing the second time. -/
theorem canonicalize_settles (mode : CanonicalizationMode) (f : Frame) :
    (∀ command,
      ReorderedReply mode command f (canonicalizeReply mode command f) ∧
      (canonicalizeReply mode command f).encode.length = f.encode.length ∧
      canonicalizeReply mode command (canonicalizeReply mode command f) =
        canonicalizeReply mode command f) ∧
    (∀ commands,
      ReorderedResults mode commands f (canonicalizeTransactionReply mode commands f) ∧
      (canonicalizeTransactionReply mode commands f).encode.length = f.encode.length ∧
      canonicalizeTransactionReply mode commands (canonicalizeTransactionReply mode commands f) =
        canonicalizeTransactionReply mode commands f) ∧
    (mode = .none → (∀ command, canonicalizeReply mode command f = f) ∧
      ∀ commands, canonicalizeTransactionReply mode commands f = f) := by
  refine ⟨fun command => ?_, fun commands => ?_, ?_⟩
  · have hsettles := settles_reply mode command f
    exact ⟨hsettles.reordered, hsettles.reordered.length_encode, hsettles.again⟩
  · have hreordered : ReorderedResults mode commands f
        (canonicalizeTransactionReply mode commands f) := by
      unfold canonicalizeTransactionReply
      split
      · exact .array (reordered_results mode commands _)
      · exact .refl f
    exact ⟨hreordered, hreordered.length_encode,
      canonicalizeTransactionReply_idem mode commands f⟩
  · rintro rfl
    have hresults : ∀ commands items, canonicalizeResults .none commands items = items := by
      intro commands
      induction commands with
      | nil => exact fun _ => rfl
      | cons command commands ih =>
          intro items
          cases items with
          | nil => rfl
          | cons item items => exact congrArg (item :: ·) (ih items)
    refine ⟨fun _ => rfl, fun commands => ?_⟩
    unfold canonicalizeTransactionReply
    split
    · rw [hresults]
    · rfl

end EvilResp
