import Mathlib.Data.List.Nodup
import EvilResp.Library.Grouping

/-!
# First appearances under a key

Of the items with one key only the first is kept.

Main results:

- Theorem {lit}`firstsBy_congr`: only equality of keys matters.
- Theorem {lit}`firstsBy_map_key`: the keys that are kept are the keys without repetitions.
-/

namespace Library

variable {ι ι' κ κ' : Type} [DecidableEq κ] [DecidableEq κ']

/-- The items whose key no earlier item has. -/
def firstsBy (key : ι → κ) (items : List ι) : List ι :=
  items.foldl (fun firsts item =>
    if key item ∈ firsts.map key then firsts else firsts ++ [item]) []

variable {key : ι → κ} {items : List ι} {item : ι}

theorem firstsBy_snoc (key : ι → κ) (items : List ι) (item : ι) :
    firstsBy key (items ++ [item]) =
      if key item ∈ (firstsBy key items).map key then firstsBy key items
      else firstsBy key items ++ [item] := by
  rw [firstsBy, List.foldl_append]
  rfl

/-- The keys that are kept are the keys without repetitions. -/
theorem firstsBy_map_key (key : ι → κ) (items : List ι) :
    (firstsBy key items).map key = (items.map key).eraseDups := by
  induction items using List.reverseRecOn with
  | nil => rfl
  | append_singleton items item ih =>
      have hkept : key item ∈ (firstsBy key items).map key ↔ key item ∈ items.map key := by
        rw [ih, List.mem_eraseDups]
      rw [firstsBy_snoc, List.map_append, List.map_singleton]
      by_cases hold : key item ∈ items.map key
      · rw [if_pos (hkept.mpr hold), ih, eraseDups_snoc_of_mem hold]
      · rw [if_neg (mt hkept.mp hold), List.map_append, ih, eraseDups_snoc_of_not_mem hold,
          List.map_singleton]

theorem mem_firstsBy_key {k : κ} : k ∈ (firstsBy key items).map key ↔ k ∈ items.map key := by
  rw [firstsBy_map_key, List.mem_eraseDups]

theorem firstsBy_snoc_of_mem (h : key item ∈ items.map key) :
    firstsBy key (items ++ [item]) = firstsBy key items := by
  rw [firstsBy_snoc, if_pos (mem_firstsBy_key.mpr h)]

theorem firstsBy_snoc_of_not_mem (h : key item ∉ items.map key) :
    firstsBy key (items ++ [item]) = firstsBy key items ++ [item] := by
  rw [firstsBy_snoc, if_neg (mt mem_firstsBy_key.mp h)]

theorem mem_of_mem_firstsBy (h : item ∈ firstsBy key items) : item ∈ items := by
  induction items using List.reverseRecOn with
  | nil => exact h
  | append_singleton items last ih =>
      by_cases hold : key last ∈ items.map key
      · rw [firstsBy_snoc_of_mem hold] at h
        exact List.mem_append_left _ (ih h)
      · rw [firstsBy_snoc_of_not_mem hold] at h
        rcases List.mem_append.mp h with hfirst | hlast
        · exact List.mem_append_left _ (ih hfirst)
        · exact List.mem_append_right _ hlast

/-- Two items that are kept have different keys. -/
theorem eq_of_mem_firstsBy {other : ι} (h : item ∈ firstsBy key items)
    (hother : other ∈ firstsBy key items) (hkey : key item = key other) : item = other := by
  have hnodup : ((firstsBy key items).map key).Nodup := by
    rw [firstsBy_map_key]
    exact nodup_eraseDups _
  exact List.inj_on_of_nodup_map hnodup h hother hkey

/-- Every key is the key of an item that is kept. -/
theorem exists_mem_firstsBy (key : ι → κ) (h : item ∈ items) :
    ∃ first ∈ firstsBy key items, key first = key item :=
  List.mem_map.mp (mem_firstsBy_key.mpr (List.mem_map_of_mem h))

/-- Only equality of keys matters. -/
theorem firstsBy_congr {other : ι → κ'}
    (h : ∀ a ∈ items, ∀ b ∈ items, key a = key b ↔ other a = other b) :
    firstsBy key items = firstsBy other items := by
  induction items using List.reverseRecOn with
  | nil => rfl
  | append_singleton items item ih =>
      have hitems := ih fun a ha b hb =>
        h a (List.mem_append_left _ ha) b (List.mem_append_left _ hb)
      have hmem : key item ∈ items.map key ↔ other item ∈ items.map other := by
        simp only [List.mem_map]
        refine exists_congr fun a => and_congr_right fun ha => ?_
        exact h a (List.mem_append_left _ ha) item (List.mem_append_right _ List.mem_cons_self)
      by_cases hold : key item ∈ items.map key
      · rw [firstsBy_snoc_of_mem hold, firstsBy_snoc_of_mem (hmem.mp hold), hitems]
      · rw [firstsBy_snoc_of_not_mem hold, firstsBy_snoc_of_not_mem (mt hmem.mpr hold), hitems]

theorem firstsBy_map (key : ι → κ) (f : ι' → ι) (items : List ι') :
    firstsBy key (items.map f) = (firstsBy (key ∘ f) items).map f := by
  induction items using List.reverseRecOn with
  | nil => rfl
  | append_singleton items item ih =>
      have hkeys : (items.map f).map key = items.map (key ∘ f) := List.map_map
      rw [List.map_append, List.map_singleton]
      by_cases hold : key (f item) ∈ (items.map f).map key
      · rw [firstsBy_snoc_of_mem hold, firstsBy_snoc_of_mem (hkeys ▸ hold), ih]
      · rw [firstsBy_snoc_of_not_mem hold, firstsBy_snoc_of_not_mem (hkeys ▸ hold), ih,
          List.map_append, List.map_singleton]

end Library
