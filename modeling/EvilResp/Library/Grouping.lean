import Mathlib.Data.List.Induction
import Mathlib.Logic.Relation

/-!
# Grouping items by shared keys

Items carry a key and may carry a tag.  Two items that share either belong
together, and so do the ends of a chain of such items.  A placement gives every group a
place of its own, and no place two tags.

Main results:

- Theorem {lit}`Placed.snoc`: what the place of one more item must respect.
- Theorem {lit}`rel_of_pairwise_eraseDups`: a place comes after the places of earlier items.
-/

namespace Library

variable {ι κ ν α : Type}

/-- How items are identified. -/
structure Keyed (ι κ ν : Type) where
  key : ι → κ
  tag : ι → Option ν

namespace Keyed

variable (keys : Keyed ι κ ν)

/-- Two items have one key or one tag. -/
def Shares (a b : ι) : Prop :=
  keys.key a = keys.key b ∨ ∃ id, keys.tag a = some id ∧ keys.tag b = some id

/-- Two items are linked by a chain of items that share a key or a tag. -/
def Linked (items : List ι) : ι → ι → Prop :=
  Relation.ReflTransGen fun a b => a ∈ items ∧ b ∈ items ∧ keys.Shares a b

variable {keys}

theorem Shares.symm {a b : ι} (h : keys.Shares a b) : keys.Shares b a := by
  rcases h with h | ⟨id, ha, hb⟩
  · exact .inl h.symm
  · exact .inr ⟨id, hb, ha⟩

theorem Linked.symm {items : List ι} {a b : ι} (h : keys.Linked items a b) :
    keys.Linked items b a := by
  induction h with
  | refl => exact .refl
  | tail _ hlast ih =>
      rcases hlast with ⟨hb, hc, hshares⟩
      exact .head ⟨hc, hb, hshares.symm⟩ ih

theorem Linked.mono {items others : List ι} (hsub : items ⊆ others) {a b : ι}
    (h : keys.Linked items a b) : keys.Linked others a b := by
  induction h with
  | refl => exact .refl
  | tail _ hlast ih =>
      rcases hlast with ⟨hb, hc, hshares⟩
      exact ih.tail ⟨hsub hb, hsub hc, hshares⟩

/-- A change of items that keeps keys and tags keeps chains. -/
theorem Linked.map {items : List ι} {f : ι → ι} (hkey : ∀ a, keys.key (f a) = keys.key a)
    (htag : ∀ a, keys.tag (f a) = keys.tag a) {a b : ι} (h : keys.Linked items a b) :
    keys.Linked (items.map f) (f a) (f b) := by
  induction h with
  | refl => exact .refl
  | tail _ hlast ih =>
      rcases hlast with ⟨hb, hc, hshares⟩
      refine ih.tail ⟨List.mem_map_of_mem hb, List.mem_map_of_mem hc, ?_⟩
      simpa only [Shares, hkey, htag] using hshares

end Keyed

/-- A placement that puts together what belongs together, and nothing else. -/
structure Placed (keys : Keyed ι κ ν) (place : ι → α) (items : List ι) : Prop where
  shared : ∀ a ∈ items, ∀ b ∈ items, keys.Shares a b → place a = place b
  chained : ∀ a ∈ items, ∀ b ∈ items, place a = place b → keys.Linked items a b
  single : ∀ a ∈ items, ∀ b ∈ items, place a = place b → ∀ i j,
    keys.tag a = some i → keys.tag b = some j → i = j

namespace Placed

variable {keys : Keyed ι κ ν} {place : ι → α} {items : List ι}

theorem nil : Placed keys place [] where
  shared := by simp
  chained := by simp
  single := by simp

/-- Only the places of the items matter. -/
theorem congr {other : ι → α} (h : Placed keys place items)
    (heq : ∀ a ∈ items, other a = place a) : Placed keys other items where
  shared := by
    intro a ha b hb hshares
    rw [heq a ha, heq b hb]
    exact h.shared a ha b hb hshares
  chained := by
    intro a ha b hb hplace
    rw [heq a ha, heq b hb] at hplace
    exact h.chained a ha b hb hplace
  single := by
    intro a ha b hb hplace
    rw [heq a ha, heq b hb] at hplace
    exact h.single a ha b hb hplace

/-- One more item.  It goes where the items are that share its key or tag, it joins a
place only through one of these, and its tag is the one of its place. -/
theorem snoc (h : Placed keys place items) {x : ι}
    (hshared : ∀ a ∈ items, keys.Shares a x → place a = place x)
    (hchained : ∀ a ∈ items, place a = place x →
      ∃ b ∈ items, place b = place x ∧ keys.Shares b x)
    (hsingle : ∀ a ∈ items, place a = place x → ∀ i j,
      keys.tag a = some i → keys.tag x = some j → i = j) :
    Placed keys place (items ++ [x]) := by
  have hlink : ∀ a ∈ items, place a = place x → keys.Linked (items ++ [x]) a x := by
    intro a ha hplace
    rcases hchained a ha hplace with ⟨b, hb, hbplace, hshares⟩
    have hab := (h.chained a ha b hb (hplace.trans hbplace.symm)).mono
      (List.subset_append_left items [x])
    exact hab.tail ⟨List.mem_append_left _ hb, List.mem_append_right _ List.mem_cons_self, hshares⟩
  constructor
  · intro a ha b hb hshares
    rcases List.mem_append.mp ha with ha | ha
    · rcases List.mem_append.mp hb with hb | hb
      · exact h.shared a ha b hb hshares
      · cases List.mem_singleton.mp hb
        exact hshared a ha hshares
    · cases List.mem_singleton.mp ha
      rcases List.mem_append.mp hb with hb | hb
      · exact (hshared b hb hshares.symm).symm
      · cases List.mem_singleton.mp hb
        rfl
  · intro a ha b hb hplace
    rcases List.mem_append.mp ha with ha | ha
    · rcases List.mem_append.mp hb with hb | hb
      · exact (h.chained a ha b hb hplace).mono (List.subset_append_left items [x])
      · cases List.mem_singleton.mp hb
        exact hlink a ha hplace
    · cases List.mem_singleton.mp ha
      rcases List.mem_append.mp hb with hb | hb
      · exact (hlink b hb hplace.symm).symm
      · cases List.mem_singleton.mp hb
        exact .refl
  · intro a ha b hb hplace i j hi hj
    rcases List.mem_append.mp ha with ha | ha
    · rcases List.mem_append.mp hb with hb | hb
      · exact h.single a ha b hb hplace i j hi hj
      · cases List.mem_singleton.mp hb
        exact hsingle a ha hplace i j hi hj
    · cases List.mem_singleton.mp ha
      rcases List.mem_append.mp hb with hb | hb
      · exact (hsingle b hb hplace.symm j i hj hi).symm
      · cases List.mem_singleton.mp hb
        exact Option.some.inj (hi.symm.trans hj)

end Placed

/-! ## First appearances -/

variable [BEq α] [LawfulBEq α]

theorem eraseDups_snoc_of_mem {xs : List α} {x : α} (h : x ∈ xs) :
    (xs ++ [x]).eraseDups = xs.eraseDups := by
  have hnone : [x].removeAll xs = [] := by simp [List.removeAll, h]
  rw [List.eraseDups_append, hnone, List.eraseDups_nil, List.append_nil]

theorem eraseDups_snoc_of_not_mem {xs : List α} {x : α} (h : x ∉ xs) :
    (xs ++ [x]).eraseDups = xs.eraseDups ++ [x] := by
  have hsome : [x].removeAll xs = [x] := by simp [List.removeAll, h]
  have hone : [x].eraseDups = [x] := by simp [List.eraseDups_cons]
  rw [List.eraseDups_append, hsome, hone]

theorem nodup_eraseDups (xs : List α) : xs.eraseDups.Nodup := by
  induction xs using List.reverseRecOn with
  | nil => exact List.nodup_nil
  | append_singleton xs x ih =>
      by_cases h : x ∈ xs
      · rwa [eraseDups_snoc_of_mem h]
      · rw [eraseDups_snoc_of_not_mem h]
        have hfresh : ∀ y ∈ xs.eraseDups, y ≠ x := by
          rintro y hy rfl
          exact h (List.mem_eraseDups.mp hy)
        exact List.nodup_append.mpr ⟨ih, by simp, by simpa using hfresh⟩

theorem eraseDups_map_some (xs : List α) :
    (xs.map some).eraseDups = xs.eraseDups.map some := by
  induction xs using List.reverseRecOn with
  | nil => rfl
  | append_singleton xs x ih =>
      rw [List.map_append, List.map_singleton]
      by_cases h : x ∈ xs
      · rw [eraseDups_snoc_of_mem h, eraseDups_snoc_of_mem (List.mem_map_of_mem h), ih]
      · have hsome : some x ∉ xs.map some := by simpa using h
        rw [eraseDups_snoc_of_not_mem h, eraseDups_snoc_of_not_mem hsome, ih, List.map_append,
          List.map_singleton]

/-- A value stands, once repetitions are erased, after all values seen before it. -/
theorem rel_of_pairwise_eraseDups {r : α → α → Prop} {before later : List α}
    (h : (before ++ later).eraseDups.Pairwise r) {a b : α} (ha : a ∈ before) (hb : b ∈ later)
    (hnew : b ∉ before) : r a b := by
  rw [List.eraseDups_append] at h
  have hfirst : a ∈ before.eraseDups := List.mem_eraseDups.mpr ha
  have hlate : b ∈ (later.removeAll before).eraseDups :=
    List.mem_eraseDups.mpr (List.mem_filter.mpr ⟨hb, by simpa using hnew⟩)
  exact (List.pairwise_append.mp h).2.2 a hfirst b hlate

end Library
