import Mathlib.Tactic
import Mathlib.Order.Interval.Finset.Nat

/-!
# Selection by cumulative weight

The items of a list own consecutive intervals of numbers, each as long as the item is
heavy.  A walk that subtracts the weights of the items it passes stops at the owner of a
number.

Main results:

- Theorem {lit}`Weighted.existsUnique_owns`: every number below the total has one owner.
- Theorem {lit}`Weighted.card_owned`: an item owns as many numbers as it weighs.
- Theorem {lit}`Weighted.exact_of_seek`: the walk stops at the owner.
-/

namespace Library
namespace Weighted

variable {α β : Type} (weight : α → Nat)

/-- The weight of a list. -/
def total (items : List α) : Nat :=
  (items.map weight).sum

/-- The item at an index owns a number. -/
def Owns (items : List α) (r k : Nat) : Prop :=
  k < items.length ∧ total weight (items.take k) ≤ r ∧ r < total weight (items.take (k + 1))

instance (items : List α) (r k : Nat) : Decidable (Owns weight items r k) := by
  unfold Owns
  infer_instance

/-- Walk over the items, subtracting their weights: the item that is hit, or what remains
after the last one. -/
def seek : List α → Nat → α ⊕ Nat
  | [], r => .inr r
  | a :: items, r => if r < weight a then .inl a else seek items (r - weight a)

variable {weight}

/-- Nothing has no weight. -/
@[simp] theorem total_nil : total weight [] = 0 :=
  rfl

/-- The first item adds its weight. -/
@[simp] theorem total_cons (a : α) (items : List α) :
    total weight (a :: items) = weight a + total weight items := by
  simp [total]

/-- The weights of two lists are added. -/
@[simp] theorem total_append (items others : List α) :
    total weight (items ++ others) = total weight items + total weight others := by
  simp [total]

/-- The items may be renamed. -/
theorem total_map (f : β → α) (items : List β) :
    total weight (items.map f) = total (fun b => weight (f b)) items := by
  rw [total, List.map_map]
  rfl

/-- The items may be grouped. -/
theorem total_flatMap (f : β → List α) (items : List β) :
    total weight (items.flatMap f) = total (fun b => total weight (f b)) items := by
  induction items with
  | nil => rfl
  | cons b items ih => rw [List.flatMap_cons, total_append, total_cons, ih]

/-- Equal weights have equal sums. -/
theorem total_congr {weight' : α → Nat} {items : List α}
    (h : ∀ a ∈ items, weight a = weight' a) : total weight items = total weight' items :=
  congrArg List.sum (List.map_congr_left h)

/-- A list whose items all weigh one weighs its length. -/
theorem total_one (items : List α) : total (fun _ => 1) items = items.length := by
  simp [total]

/-- A bound on the weights bounds their sum. -/
theorem total_le {bound : Nat} {items : List α} (h : ∀ a ∈ items, weight a ≤ bound) :
    total weight items ≤ items.length * bound := by
  induction items with
  | nil => simp
  | cons a items ih =>
      rcases List.forall_mem_cons.mp h with ⟨ha, hitems⟩
      have hrest := ih hitems
      rw [total_cons, List.length_cons, Nat.succ_mul]
      omega

/-- Some of the first items weigh no more than all. -/
theorem total_take_le (weight : α → Nat) (items : List α) (k : Nat) :
    total weight (items.take k) ≤ total weight items := by
  have hsplit := congrArg (total weight) (List.take_append_drop k items)
  rw [total_append] at hsplit
  omega

/-- One more item adds its weight. -/
theorem total_take_succ (weight : α → Nat) {items : List α} {k : Nat} {a : α}
    (h : items[k]? = some a) :
    total weight (items.take (k + 1)) = total weight (items.take k) + weight a := by
  rw [List.take_add_one, h, total_append]
  simp

/-! ## Owners -/

/-- The first item owns the first numbers. -/
theorem owns_zero {a : α} {items : List α} {r : Nat} :
    Owns weight (a :: items) r 0 ↔ r < weight a := by
  simp [Owns]

/-- The later items own the numbers after those. -/
theorem owns_succ {a : α} {items : List α} {r k : Nat} :
    Owns weight (a :: items) r (k + 1) ↔ weight a ≤ r ∧ Owns weight items (r - weight a) k := by
  simp only [Owns, List.length_cons, List.take_succ_cons, total_cons]
  omega

/-- Every number below the total has one owner. -/
theorem existsUnique_owns {items : List α} {r : Nat} (h : r < total weight items) :
    ∃! k, Owns weight items r k := by
  induction items generalizing r with
  | nil => cases h
  | cons a items ih =>
      rw [total_cons] at h
      by_cases hfirst : r < weight a
      · refine ⟨0, owns_zero.mpr hfirst, ?_⟩
        intro k hk
        cases k with
        | zero => rfl
        | succ k => exact absurd (owns_succ.mp hk).1 (not_le.mpr hfirst)
      · rcases ih (r := r - weight a) (by omega) with ⟨k, hk, hunique⟩
        refine ⟨k + 1, owns_succ.mpr ⟨not_lt.mp hfirst, hk⟩, ?_⟩
        intro j hj
        cases j with
        | zero => exact absurd (owns_zero.mp hj) hfirst
        | succ j => rw [hunique j (owns_succ.mp hj).2]

/-- An item owns as many of the numbers below the total as it weighs. -/
theorem card_owned {items : List α} {k : Nat} {a : α} (h : items[k]? = some a) :
    ((Finset.range (total weight items)).filter fun r => Owns weight items r k).card =
      weight a := by
  have hk : k < items.length := (List.getElem?_eq_some_iff.mp h).1
  have hnext := total_take_succ weight h
  have hle := total_take_le weight items (k + 1)
  have hinterval : ((Finset.range (total weight items)).filter fun r => Owns weight items r k) =
      Finset.Ico (total weight (items.take k)) (total weight (items.take (k + 1))) := by
    ext r
    rw [Finset.mem_filter, Finset.mem_range, Finset.mem_Ico]
    unfold Owns
    omega
  rw [hinterval, Nat.card_Ico, hnext]
  omega

/-! ## The walk -/

/-- The walk stops at the owner. -/
theorem seek_of_owns {items : List α} {r k : Nat} {a : α} (h : Owns weight items r k)
    (ha : items[k]? = some a) : seek weight items r = .inl a := by
  induction items generalizing r k with
  | nil => cases ha
  | cons b items ih =>
      cases k with
      | zero =>
          obtain rfl := Option.some.inj ha
          rw [seek, if_pos (owns_zero.mp h)]
      | succ k =>
          rcases owns_succ.mp h with ⟨hle, hrest⟩
          rw [seek, if_neg (not_lt.mpr hle)]
          exact ih hrest ha

/-- A walk that hits an item walked into its interval. -/
theorem seek_eq_inl_iff {items : List α} {r : Nat} {a : α} :
    seek weight items r = .inl a ↔ ∃ k, Owns weight items r k ∧ items[k]? = some a := by
  constructor
  · intro h
    induction items generalizing r with
    | nil => cases h
    | cons b items ih =>
        rw [seek] at h
        by_cases hfirst : r < weight b
        · rw [if_pos hfirst] at h
          cases h
          exact ⟨0, owns_zero.mpr hfirst, rfl⟩
        · rw [if_neg hfirst] at h
          rcases ih h with ⟨k, hk, ha⟩
          exact ⟨k + 1, owns_succ.mpr ⟨not_lt.mp hfirst, hk⟩, ha⟩
  · rintro ⟨k, hk, ha⟩
    exact seek_of_owns hk ha

/-- What is found is one of the items. -/
theorem mem_of_seek {items : List α} {r : Nat} {a : α} (h : seek weight items r = .inl a) :
    a ∈ items := by
  rcases seek_eq_inl_iff.mp h with ⟨k, -, ha⟩
  exact List.mem_of_getElem? ha

/-- The second list is searched if nothing is found in the first. -/
theorem seek_append (items others : List α) (r : Nat) :
    seek weight (items ++ others) r = (seek weight items r).elim .inl (seek weight others) := by
  induction items generalizing r with
  | nil => rfl
  | cons a items ih =>
      rw [List.cons_append, seek, seek]
      by_cases hfirst : r < weight a
      · rw [if_pos hfirst, if_pos hfirst]
        rfl
      · rw [if_neg hfirst, if_neg hfirst, ih]

/-- The items may be renamed. -/
theorem seek_map (f : β → α) (items : List β) (r : Nat) :
    seek weight (items.map f) r = (seek (fun b => weight (f b)) items r).map f id := by
  induction items generalizing r with
  | nil => rfl
  | cons b items ih =>
      rw [List.map_cons, seek, seek]
      by_cases hfirst : r < weight (f b)
      · rw [if_pos hfirst, if_pos hfirst]
        rfl
      · rw [if_neg hfirst, if_neg hfirst, ih]

/-! ## Exact selection -/

/-- Numbers below a total select items: each number its only owner, each item with as many
numbers as it weighs. -/
structure Exact (items : List α) (weight : α → Nat) (sum : Nat) (outcome : Nat → β)
    (chosen : α → β) : Prop where
  total : sum = total weight items
  unique : ∀ r < sum, ∃! k, Owns weight items r k
  outcome : ∀ r k a, Owns weight items r k → items[k]? = some a → outcome r = chosen a
  share : ∀ k a, items[k]? = some a →
    ((Finset.range sum).filter fun r => Owns weight items r k).card = weight a

/-- A walk over the items selects exactly. -/
theorem exact_of_seek {items : List α} {outcome : Nat → β} {chosen : α → β} {missed : Nat → β}
    (h : ∀ r, outcome r = (seek weight items r).elim chosen missed) :
    Exact items weight (total weight items) outcome chosen := by
  constructor
  · rfl
  · exact fun r => existsUnique_owns
  · intro r k a howns ha
    rw [h, seek_of_owns howns ha]
    rfl
  · exact fun k a => card_owned

end Weighted
end Library
