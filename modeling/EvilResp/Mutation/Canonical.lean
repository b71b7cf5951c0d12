import EvilResp.Config.Evil
import EvilResp.Library.Sort
import EvilResp.Resp.Unique

/-!
# Canonical replies

Upstream servers may list the members of sets, the pairs of maps and the results of
some commands in any order.  Before a reply seeds a random stream, the children
whose order carries no meaning are sorted by their encodings, bottom up.

Main results:

- Theorem {lit}`Reordered.canonical`: frames that differ in the order of unordered
  children have the same canonical form.
- Theorem {lit}`ReorderedReply.canonical`: the same for the reply to a command.
- Theorem {lit}`ReorderedResults.canonical`: the same for the results of a transaction.
-/

namespace EvilResp

open Library
open EvilResp.Resp
open EvilResp.Resp.Frame

/-! ## Canonicalization -/

/-- Frames are ordered by their encodings. -/
def sortKey (f : Frame) : Bytes :=
  f.encode

/-- Items in the order of their encodings. -/
def sortItems (items : List Frame) : List Frame :=
  sortByKey sortKey items

/-- Pairs in the order of their encodings. -/
def sortPairs (pairs : List (Frame × Frame)) : List (Frame × Frame) :=
  sortPairsByKey sortKey pairs

/-- Put canonical children back.  Arrays and pushes are sorted in mode ALL only. -/
def arrange (mode : CanonicalizationMode) : Frame → List Frame → Frame
  | .array (some _), items => .array (some (if mode = .all then sortItems items else items))
  | .push _, items => .push (if mode = .all then sortItems items else items)
  | .set _, items => .set (sortItems items)
  | .map _, items => .map (sortPairs (pairUp items))
  | .attribute _, items => .attribute (sortPairs (pairUp items))
  | f, _ => f

/-- Every collection of a reply in order. -/
def canonicalizeAllContainers : Frame → Frame :=
  fold (arrange .all)

/-- Every set and map of a reply in order. -/
def canonicalizeUnorderedContainers : Frame → Frame :=
  fold (arrange .unordered)

/-- The items of an array in order. -/
def canonicalizeArrayItems : Frame → Frame
  | .array (some items) => .array (some (sortItems (items.map canonicalizeUnorderedContainers)))
  | f => f

/-- The flattened pairs of an array move together; an odd remainder stays last. -/
def canonicalizeArrayPairs : Frame → Frame
  | .array (some items) =>
      let (chunks, remainder) := asChunks2 (items.map canonicalizeUnorderedContainers)
      .array (some ((sortPairs chunks).flatMap (fun pair => [pair.1, pair.2]) ++ remainder))
  | f => f

/-- The reply to a command, in order where the command promises none. -/
def canonicalizeUnorderedReply (command : Option String) (f : Frame) : Frame :=
  let f := canonicalizeUnorderedContainers f
  match command.map toAsciiUppercase with
  | some "HGETALL" => canonicalizeArrayPairs f
  | some "HKEYS" | some "HVALS" | some "SDIFF" | some "SINTER" | some "SMEMBERS"
  | some "SUNION" => canonicalizeArrayItems f
  | _ => f

/-- The reply to a command in its canonical form. -/
def canonicalizeReply (mode : CanonicalizationMode) (command : Option String) (f : Frame) :
    Frame :=
  match mode with
  | .all => canonicalizeAllContainers f
  | .unordered => canonicalizeUnorderedReply command f
  | .none => f

/-- Canonicalize each result under the command that produced it. -/
def canonicalizeResults (mode : CanonicalizationMode) : List String → List Frame → List Frame
  | command :: commands, item :: items =>
      canonicalizeReply mode (some command) item :: canonicalizeResults mode commands items
  | _, items => items

/-- The replies of a transaction, each in the canonical form of its command. -/
def canonicalizeTransactionReply (mode : CanonicalizationMode) (commands : List String) :
    Frame → Frame
  | .array (some items) => .array (some (canonicalizeResults mode commands items))
  | f => f

/-! ## Orders that carry no meaning -/

/-- Frames that differ in the order of the children that a mode treats as unordered. -/
inductive Reordered (mode : CanonicalizationMode) : Frame → Frame → Prop where
  | refl (f : Frame) : Reordered mode f f
  | trans {f g h : Frame} : Reordered mode f g → Reordered mode g h → Reordered mode f h
  | child {f c d : Frame} {before after : List Frame} : f.children = before ++ c :: after →
      Reordered mode c d → Reordered mode f (f.rebuild (before ++ d :: after))
  | array {xs ys : List Frame} : mode = .all → xs.Perm ys →
      Reordered mode (.array (some xs)) (.array (some ys))
  | push {xs ys : List Frame} : mode = .all → xs.Perm ys → Reordered mode (.push xs) (.push ys)
  | set {xs ys : List Frame} : xs.Perm ys → Reordered mode (.set xs) (.set ys)
  | map {ps qs : List (Frame × Frame)} : ps.Perm qs → Reordered mode (.map ps) (.map qs)
  | «attribute» {ps qs : List (Frame × Frame)} : ps.Perm qs →
      Reordered mode (.attribute ps) (.attribute qs)

/-- Commands whose array lists its members in any order. -/
def unorderedItems : List String :=
  ["HKEYS", "HVALS", "SDIFF", "SINTER", "SMEMBERS", "SUNION"]

/-- Replies to one command that differ in an order without meaning. -/
inductive ReorderedReply (mode : CanonicalizationMode) (command : Option String) :
    Frame → Frame → Prop where
  | nested {f g : Frame} : Reordered mode f g → ReorderedReply mode command f g
  | trans {f g h : Frame} : ReorderedReply mode command f g → ReorderedReply mode command g h →
      ReorderedReply mode command f h
  | items {name : String} {xs ys : List Frame} : mode = .unordered →
      command.map toAsciiUppercase = some name → name ∈ unorderedItems → xs.Perm ys →
      ReorderedReply mode command (.array (some xs)) (.array (some ys))
  | pairs {ps qs : List (Frame × Frame)} {remainder : List Frame} : mode = .unordered →
      command.map toAsciiUppercase = some "HGETALL" → ps.Perm qs → remainder.length ≤ 1 →
      ReorderedReply mode command
        (.array (some (ps.flatMap (fun pair => [pair.1, pair.2]) ++ remainder)))
        (.array (some (qs.flatMap (fun pair => [pair.1, pair.2]) ++ remainder)))

/-- Results that differ, each under its own command.  Results without a command
are in their original order. -/
inductive ReorderedItems (mode : CanonicalizationMode) :
    List String → List Frame → List Frame → Prop where
  | rest (commands : List String) (items : List Frame) : ReorderedItems mode commands items items
  | cons {command : String} {commands : List String} {f g : Frame} {fs gs : List Frame} :
      ReorderedReply mode (some command) f g → ReorderedItems mode commands fs gs →
      ReorderedItems mode (command :: commands) (f :: fs) (g :: gs)

/-- Replies to EXEC that differ inside their results. -/
inductive ReorderedResults (mode : CanonicalizationMode) (commands : List String) :
    Frame → Frame → Prop where
  | refl (f : Frame) : ReorderedResults mode commands f f
  | array {xs ys : List Frame} : ReorderedItems mode commands xs ys →
      ReorderedResults mode commands (.array (some xs)) (.array (some ys))

/-! ## Typed children -/

theorem pairUp_map (g : Frame → Frame) (pairs : List (Frame × Frame)) :
    pairUp ((pairs.flatMap fun pair => [pair.1, pair.2]).map g) = pairs.map (Prod.map g g) := by
  induction pairs with
  | nil => rfl
  | cons pair pairs ih => simp [pairUp, ih, Prod.map]

theorem perm_flatten {ps qs : List (Frame × Frame)} (h : ps.Perm qs) :
    (ps.flatMap fun pair => [pair.1, pair.2]).Perm (qs.flatMap fun pair => [pair.1, pair.2]) :=
  h.flatMap_right _

theorem typed_of_children {f : Frame} (hinline : ∀ parts, f ≠ .inline parts) (htext : f.text = none)
    (hchildren : ∀ c ∈ f.children, c.Typed) : f.Typed :=
  typed_iff.mpr ⟨hinline, by simp [htext], hchildren⟩

/-- Typed frames with the same members in another order sort to the same list. -/
theorem sortItems_eq {xs ys : List Frame} (hperm : xs.Perm ys) (htyped : ∀ f ∈ xs, f.Typed) :
    sortItems xs = sortItems ys :=
  sortByKey_eq_of_perm hperm fun f hf g hg => encode_inj (htyped f hf) (htyped g hg)

theorem sortPairs_eq {ps qs : List (Frame × Frame)} (hperm : ps.Perm qs)
    (htyped : ∀ pair ∈ ps, pair.1.Typed ∧ pair.2.Typed) : sortPairs ps = sortPairs qs := by
  apply sortPairsByKey_eq_of_perm hperm
  intro p hp q hq hkey hvalue
  obtain ⟨hp₁, hp₂⟩ := htyped p hp
  obtain ⟨hq₁, hq₂⟩ := htyped q hq
  exact Prod.ext (encode_inj hp₁ hq₁ hkey) (encode_inj hp₂ hq₂ hvalue)

theorem mem_sortItems {items : List Frame} {f : Frame} : f ∈ sortItems items ↔ f ∈ items :=
  (perm_sortByKey sortKey items).mem_iff

theorem mem_sortPairs {pairs : List (Frame × Frame)} {pair : Frame × Frame} :
    pair ∈ sortPairs pairs ↔ pair ∈ pairs :=
  (perm_sortPairsByKey sortKey pairs).mem_iff

/-- Every child after sorting is one of the canonical children. -/
theorem typed_arrange {mode : CanonicalizationMode} {f : Frame} {items : List Frame}
    (hf : f.Typed) (hitems : ∀ c ∈ items, c.Typed) : (arrange mode f items).Typed := by
  have hsequence : ∀ c ∈ (if mode = .all then sortItems items else items), c.Typed := by
    intro c hc
    split at hc
    · exact hitems c (mem_sortItems.mp hc)
    · exact hitems c hc
  have hpairs : ∀ c ∈ (sortPairs (pairUp items)).flatMap (fun pair => [pair.1, pair.2]),
      c.Typed := by
    apply forall_mem_pairs
    intro pair hpair
    obtain ⟨hkey, hvalue⟩ := mem_pairUp (mem_sortPairs.mp hpair)
    exact ⟨hitems _ hkey, hitems _ hvalue⟩
  cases f with
  | array old =>
      cases old with
      | none => exact hf
      | some old => exact typed_of_children nofun rfl hsequence
  | push old => exact typed_of_children nofun rfl hsequence
  | set old =>
      exact typed_of_children nofun rfl fun c hc => hitems c (mem_sortItems.mp hc)
  | map old => exact typed_of_children nofun rfl hpairs
  | «attribute» old => exact typed_of_children nofun rfl hpairs
  | _ => exact hf

theorem typed_fold_arrange {mode : CanonicalizationMode} {f : Frame} (hf : f.Typed) :
    (fold (arrange mode) f).Typed := by
  induction f using childInduction with
  | step f ih =>
      rw [fold_eq]
      apply typed_arrange hf
      intro c hc
      obtain ⟨d, hd, rfl⟩ := List.mem_map.mp hc
      exact ih d hd (hf.of_mem_children hd)

/-! ## Canonical forms do not depend on the order -/

variable {mode : CanonicalizationMode} {command : Option String}

/-- Only the constructor of the old frame matters when children are put back. -/
theorem arrange_rebuild (f : Frame) (old items : List Frame) :
    arrange mode (f.rebuild old) items = arrange mode f items := by
  cases f with
  | array items => cases items <;> rfl
  | _ => rfl

theorem typed_fold_items {items : List Frame} (htyped : ∀ f ∈ items, f.Typed) :
    ∀ f ∈ items.map (fold (arrange mode)), f.Typed := by
  intro f hf
  rcases List.mem_map.mp hf with ⟨g, hg, rfl⟩
  exact typed_fold_arrange (htyped g hg)

/-- The canonical form of unordered members. -/
theorem sortItems_fold_eq {xs ys : List Frame} (hperm : xs.Perm ys) (htyped : ∀ f ∈ xs, f.Typed) :
    sortItems (xs.map (fold (arrange mode))) = sortItems (ys.map (fold (arrange mode))) :=
  sortItems_eq (hperm.map _) (typed_fold_items htyped)

/-- The canonical form of unordered pairs. -/
theorem sortPairs_fold_eq {ps qs : List (Frame × Frame)} (hperm : ps.Perm qs)
    (htyped : ∀ pair ∈ ps, pair.1.Typed ∧ pair.2.Typed) :
    sortPairs (ps.map (Prod.map (fold (arrange mode)) (fold (arrange mode)))) =
      sortPairs (qs.map (Prod.map (fold (arrange mode)) (fold (arrange mode)))) := by
  apply sortPairs_eq (hperm.map _)
  intro pair hpair
  rcases List.mem_map.mp hpair with ⟨old, hold, rfl⟩
  exact ⟨typed_fold_arrange (htyped old hold).1, typed_fold_arrange (htyped old hold).2⟩

theorem typed_of_mem_pairs {f : Frame} {ps : List (Frame × Frame)} (hf : f.Typed)
    (hchildren : f.children = ps.flatMap fun pair => [pair.1, pair.2]) :
    ∀ pair ∈ ps, pair.1.Typed ∧ pair.2.Typed := by
  intro pair hpair
  constructor
  · apply hf.of_mem_children
    rw [hchildren]
    exact mem_pairs.mpr ⟨pair, hpair, .inl rfl⟩
  · apply hf.of_mem_children
    rw [hchildren]
    exact mem_pairs.mpr ⟨pair, hpair, .inr rfl⟩

/-- Reordering members keeps a frame typed. -/
theorem typed_of_perm {f g : Frame} (hf : f.Typed) (hinline : ∀ parts, g ≠ .inline parts)
    (htext : g.text = none) (hperm : f.children.Perm g.children) : g.Typed :=
  typed_of_children hinline htext fun _ hc => hf.of_mem_children (hperm.mem_iff.mpr hc)

theorem typed_rebuild {f : Frame} {items : List Frame} (hf : f.Typed)
    (hlength : items.length = f.children.length) (hitems : ∀ c ∈ items, c.Typed) :
    (f.rebuild items).Typed := by
  have hchildren : ∀ c ∈ (f.rebuild items).children, c.Typed := by
    rw [children_rebuild hlength]
    exact hitems
  cases f with
  | array old =>
      cases old with
      | none => exact hf
      | some old => exact typed_of_children nofun rfl hchildren
  | set old => exact typed_of_children nofun rfl hchildren
  | push old => exact typed_of_children nofun rfl hchildren
  | map old => exact typed_of_children nofun rfl hchildren
  | «attribute» old => exact typed_of_children nofun rfl hchildren
  | _ => exact hf

/-- Frames that differ in the order of unordered children are typed together, and
have the same canonical form. -/
theorem Reordered.canonical {f g : Frame} (h : Reordered mode f g) (hf : f.Typed) :
    g.Typed ∧ fold (arrange mode) f = fold (arrange mode) g := by
  induction h with
  | refl f => exact ⟨hf, rfl⟩
  | trans _ _ ih₁ ih₂ =>
      rcases ih₁ hf with ⟨hg, hfg⟩
      rcases ih₂ hg with ⟨hh, hgh⟩
      exact ⟨hh, hfg.trans hgh⟩
  | @child f c d before after hchildren _ ih =>
      have hmem : ∀ e ∈ before ++ c :: after, e.Typed := fun e he =>
        hf.of_mem_children (hchildren ▸ he)
      rcases ih (hmem _ (by simp)) with ⟨hd, hcd⟩
      have hlength : (before ++ d :: after).length = f.children.length := by
        simp [hchildren]
      have hitems : ∀ e ∈ before ++ d :: after, e.Typed := by
        intro e he
        rcases List.mem_append.mp he with hbefore | hrest
        · exact hmem e (by simp [hbefore])
        · rcases List.mem_cons.mp hrest with rfl | hafter
          · exact hd
          · exact hmem e (by simp [hafter])
      refine ⟨typed_rebuild hf hlength hitems, ?_⟩
      rw [fold_eq, fold_eq _ (f.rebuild _), children_rebuild hlength, arrange_rebuild, hchildren]
      simp only [List.map_append, List.map_cons, hcd]
  | @array xs ys hmode hperm =>
      subst hmode
      have hsort := @sortItems_fold_eq .all xs ys hperm fun c hc => hf.of_mem_children hc
      refine ⟨typed_of_perm hf nofun rfl hperm, ?_⟩
      rw [fold_eq, fold_eq]
      simp only [arrange, children, if_true, hsort]
  | @push xs ys hmode hperm =>
      subst hmode
      have hsort := @sortItems_fold_eq .all xs ys hperm fun c hc => hf.of_mem_children hc
      refine ⟨typed_of_perm hf nofun rfl hperm, ?_⟩
      rw [fold_eq, fold_eq]
      simp only [arrange, children, if_true, hsort]
  | @set xs ys hperm =>
      have hsort := @sortItems_fold_eq mode xs ys hperm fun c hc => hf.of_mem_children hc
      refine ⟨typed_of_perm hf nofun rfl hperm, ?_⟩
      rw [fold_eq, fold_eq]
      simp only [arrange, children, hsort]
  | @map ps qs hperm =>
      have hsort := @sortPairs_fold_eq mode ps qs hperm (typed_of_mem_pairs hf rfl)
      refine ⟨typed_of_perm hf nofun rfl (perm_flatten hperm), ?_⟩
      rw [fold_eq, fold_eq]
      simp only [arrange, children, pairUp_map, hsort]
  | @«attribute» ps qs hperm =>
      have hsort := @sortPairs_fold_eq mode ps qs hperm (typed_of_mem_pairs hf rfl)
      refine ⟨typed_of_perm hf nofun rfl (perm_flatten hperm), ?_⟩
      rw [fold_eq, fold_eq]
      simp only [arrange, children, pairUp_map, hsort]

/-! ## Replies -/

/-- Only the unordered containers of a reply are looked at before its items. -/
theorem canonicalizeUnorderedContainers_array (items : List Frame) :
    canonicalizeUnorderedContainers (.array (some items)) =
      .array (some (items.map canonicalizeUnorderedContainers)) := by
  rw [canonicalizeUnorderedContainers, fold_eq]
  simp [arrange, children]

/-- The commands whose replies are sorted as a whole. -/
theorem canonicalizeUnorderedReply_items {name : String}
    (hname : command.map toAsciiUppercase = some name) (hmem : name ∈ unorderedItems)
    (f : Frame) :
    canonicalizeUnorderedReply command f =
      canonicalizeArrayItems (canonicalizeUnorderedContainers f) := by
  simp only [unorderedItems, List.mem_cons, List.not_mem_nil, or_false] at hmem
  rcases hmem with rfl | rfl | rfl | rfl | rfl | rfl <;>
    simp only [canonicalizeUnorderedReply, hname]

theorem canonicalizeUnorderedReply_pairs
    (hname : command.map toAsciiUppercase = some "HGETALL") (f : Frame) :
    canonicalizeUnorderedReply command f =
      canonicalizeArrayPairs (canonicalizeUnorderedContainers f) := by
  simp only [canonicalizeUnorderedReply, hname]

theorem canonicalizeReply_of_containers {f g : Frame} (hmode : mode ≠ .none)
    (h : fold (arrange mode) f = fold (arrange mode) g) :
    canonicalizeReply mode command f = canonicalizeReply mode command g := by
  cases mode with
  | all => exact h
  | unordered =>
      have h : canonicalizeUnorderedContainers f = canonicalizeUnorderedContainers g := h
      simp only [canonicalizeReply, canonicalizeUnorderedReply, h]
  | none => exact absurd rfl hmode

/-- Replies to one command that differ in an order without meaning have the same
canonical form. -/
theorem ReorderedReply.canonical {f g : Frame} (hmode : mode ≠ .none)
    (h : ReorderedReply mode command f g) (hf : f.Typed) :
    g.Typed ∧ canonicalizeReply mode command f = canonicalizeReply mode command g := by
  induction h with
  | nested hnested =>
      rcases hnested.canonical hf with ⟨hg, hfold⟩
      exact ⟨hg, canonicalizeReply_of_containers hmode hfold⟩
  | trans _ _ ih₁ ih₂ =>
      rcases ih₁ hf with ⟨hg, hfg⟩
      rcases ih₂ hg with ⟨hh, hgh⟩
      exact ⟨hh, hfg.trans hgh⟩
  | @items name xs ys hunordered hname hmem hperm =>
      subst hunordered
      refine ⟨typed_of_perm hf nofun rfl hperm, ?_⟩
      have htyped : ∀ c ∈ xs.map canonicalizeUnorderedContainers, c.Typed :=
        typed_fold_items fun c hc => hf.of_mem_children hc
      have hsort := @sortItems_fold_eq .unordered _ _
        (hperm.map canonicalizeUnorderedContainers) htyped
      simp only [canonicalizeReply, canonicalizeUnorderedReply_items hname hmem,
        canonicalizeUnorderedContainers_array, canonicalizeArrayItems]
      exact congrArg (fun items => Frame.array (some items)) hsort
  | @pairs ps qs remainder hunordered hname hperm hremainder =>
      subst hunordered
      refine ⟨typed_of_perm hf nofun rfl ((perm_flatten hperm).append_right remainder), ?_⟩
      have htyped : ∀ pair ∈ ps.map
          (Prod.map canonicalizeUnorderedContainers canonicalizeUnorderedContainers),
          pair.1.Typed ∧ pair.2.Typed := by
        intro pair hpair
        rcases List.mem_map.mp hpair with ⟨old, hold, rfl⟩
        have hmember : ∀ c, c = old.1 ∨ c = old.2 → c.Typed := fun c hc =>
          hf.of_mem_children (List.mem_append_left _ (mem_pairs.mpr ⟨old, hold, hc⟩))
        exact ⟨typed_fold_arrange (hmember _ (.inl rfl)), typed_fold_arrange (hmember _ (.inr rfl))⟩
      have hsort := @sortPairs_fold_eq .unordered _ _ (hperm.map _) htyped
      rw [List.map_map, List.map_map, Prod.map_comp_map] at hsort
      simp only [canonicalizeReply, canonicalizeUnorderedReply_pairs hname,
        canonicalizeUnorderedContainers_array, canonicalizeArrayPairs, List.map_map,
        asChunks2_map, asChunks2_flatten hremainder]
      exact congrArg (fun pairs : List (Frame × Frame) => Frame.array (some
        (pairs.flatMap (fun pair => [pair.1, pair.2]) ++ remainder.map _))) hsort

/-- Canonical results do not depend on an order without meaning inside the results. -/
theorem ReorderedItems.canonical {commands : List String} {fs gs : List Frame}
    (hmode : mode ≠ .none) (h : ReorderedItems mode commands fs gs) (hfs : ∀ f ∈ fs, f.Typed) :
    (∀ g ∈ gs, g.Typed) ∧
      canonicalizeResults mode commands fs = canonicalizeResults mode commands gs := by
  induction h with
  | rest commands items => exact ⟨hfs, rfl⟩
  | cons hitem _ ih =>
      rcases List.forall_mem_cons.mp hfs with ⟨hf, hrest⟩
      rcases hitem.canonical hmode hf with ⟨hg, hfg⟩
      rcases ih hrest with ⟨hgs, hresults⟩
      refine ⟨List.forall_mem_cons.mpr ⟨hg, hgs⟩, ?_⟩
      rw [canonicalizeResults, canonicalizeResults, hfg, hresults]

/-- Replies to EXEC that differ inside their results have the same canonical form. -/
theorem ReorderedResults.canonical {commands : List String} {f g : Frame} (hmode : mode ≠ .none)
    (h : ReorderedResults mode commands f g) (hf : f.Typed) :
    g.Typed ∧
      canonicalizeTransactionReply mode commands f =
        canonicalizeTransactionReply mode commands g := by
  cases h with
  | refl => exact ⟨hf, rfl⟩
  | @array xs ys hitems =>
      rcases hitems.canonical hmode fun c hc => hf.of_mem_children hc with ⟨hys, hresults⟩
      refine ⟨typed_of_children nofun rfl hys, ?_⟩
      rw [canonicalizeTransactionReply, canonicalizeTransactionReply, hresults]

end EvilResp
