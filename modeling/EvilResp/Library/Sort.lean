import Mathlib.Data.List.Sort

/-!
# Sorting by keys

Sorting by the key of a member, and of a pair by the keys of its first and then
of its second member.  When only equal members share a key, the result does not
depend on the order of the input.

Main results:

- Theorem {lit}`sortByKey_eq_of_perm`: permuted lists are sorted to the same list.
- Theorem {lit}`sortPairsByKey_eq_of_perm`: the same for pairs.
- Theorem {lit}`sortByKey_sortByKey` and theorem {lit}`sortPairsByKey_sortPairsByKey`: sorting
  again changes nothing.
-/

namespace Library

variable {α κ : Type}

/-- Two lists in order with the same members are equal, as soon as the order tells
different members apart. -/
theorem insertionSort_eq_of_perm {le : α → α → Prop} [DecidableRel le] [Std.Total le]
    [IsTrans α le] {xs ys : List α} (hperm : xs.Perm ys)
    (hanti : ∀ a ∈ xs, ∀ b ∈ xs, le a b → le b a → a = b) :
    xs.insertionSort le = ys.insertionSort le := by
  have hsorted : (xs.insertionSort le).Perm (ys.insertionSort le) :=
    (List.perm_insertionSort le xs).trans (hperm.trans (List.perm_insertionSort le ys).symm)
  apply hsorted.eq_of_pairwise _ (List.pairwise_insertionSort le xs)
    (List.pairwise_insertionSort le ys)
  intro a b ha hb
  have ha : a ∈ xs := (List.mem_insertionSort le).mp ha
  have hb : b ∈ xs := hperm.mem_iff.mpr ((List.mem_insertionSort le).mp hb)
  exact hanti a ha b hb

/-! ## Keys -/

variable [LE κ]

/-- The keys of the first members decide, then those of the second members. -/
def pairLe (key : α → κ) (p q : α × α) : Prop :=
  key p.1 ≤ key q.1 ∧ (key p.1 = key q.1 → key p.2 ≤ key q.2)

/-- Any two pairs compare. -/
theorem pairLe_total [Std.IsLinearOrder κ] (key : α → κ) (p q : α × α) :
    pairLe key p q ∨ pairLe key q p := by
  by_cases heq : key p.1 = key q.1
  · have htotal : key p.2 ≤ key q.2 ∨ key q.2 ≤ key p.2 := Std.le_total
    rcases htotal with hle | hle
    · exact .inl ⟨heq ▸ Std.le_refl _, fun _ => hle⟩
    · exact .inr ⟨heq ▸ Std.le_refl _, fun _ => hle⟩
  · have htotal : key p.1 ≤ key q.1 ∨ key q.1 ≤ key p.1 := Std.le_total
    rcases htotal with hle | hle
    · exact .inl ⟨hle, fun h => absurd h heq⟩
    · exact .inr ⟨hle, fun h => absurd h.symm heq⟩

/-- Pairs are ordered transitively. -/
theorem pairLe_trans [Std.IsLinearOrder κ] {key : α → κ} {p q r : α × α}
    (hpq : pairLe key p q) (hqr : pairLe key q r) : pairLe key p r := by
  refine ⟨Std.le_trans hpq.1 hqr.1, ?_⟩
  intro heq
  -- Equal outer keys leave no room between them.
  have hq : key p.1 = key q.1 := Std.le_antisymm hpq.1 (heq ▸ hqr.1)
  exact Std.le_trans (hpq.2 hq) (hqr.2 (hq.symm.trans heq))

variable [DecidableLE κ]

/-- Sort items by their keys. -/
def sortByKey (key : α → κ) (items : List α) : List α :=
  items.insertionSort fun a b => key a ≤ key b

/-- Sorting keeps the items. -/
theorem perm_sortByKey (key : α → κ) (items : List α) : (sortByKey key items).Perm items :=
  List.perm_insertionSort _ items

/-- Permuted lists are sorted to the same list when only equal members share a key. -/
theorem sortByKey_eq_of_perm [Std.IsLinearOrder κ] {key : α → κ} {xs ys : List α}
    (hperm : xs.Perm ys) (hkey : ∀ a ∈ xs, ∀ b ∈ xs, key a = key b → a = b) :
    sortByKey key xs = sortByKey key ys := by
  have : Std.Total fun a b : α => key a ≤ key b := ⟨fun _ _ => Std.le_total⟩
  have : IsTrans α fun a b : α => key a ≤ key b := ⟨fun _ _ _ => Std.le_trans⟩
  apply insertionSort_eq_of_perm hperm
  intro a ha b hb hab hba
  exact hkey a ha b hb (Std.le_antisymm hab hba)

/-- Sorting again changes nothing. -/
theorem sortByKey_sortByKey [Std.IsLinearOrder κ] (key : α → κ) (items : List α) :
    sortByKey key (sortByKey key items) = sortByKey key items := by
  have : Std.Total fun a b : α => key a ≤ key b := ⟨fun _ _ => Std.le_total⟩
  have : IsTrans α fun a b : α => key a ≤ key b := ⟨fun _ _ _ => Std.le_trans⟩
  exact (List.pairwise_insertionSort _ items).insertionSort_eq

variable [DecidableEq κ]

instance (key : α → κ) : DecidableRel (pairLe key) := fun p q =>
  inferInstanceAs (Decidable (key p.1 ≤ key q.1 ∧ (key p.1 = key q.1 → key p.2 ≤ key q.2)))

/-- Sort pairs by the keys of both parts. -/
def sortPairsByKey (key : α → κ) (pairs : List (α × α)) : List (α × α) :=
  pairs.insertionSort (pairLe key)

/-- Sorting keeps the pairs. -/
theorem perm_sortPairsByKey (key : α → κ) (pairs : List (α × α)) :
    (sortPairsByKey key pairs).Perm pairs :=
  List.perm_insertionSort _ pairs

/-- Sorted pairs stay as they are. -/
theorem sortPairsByKey_sortPairsByKey [Std.IsLinearOrder κ] (key : α → κ)
    (pairs : List (α × α)) :
    sortPairsByKey key (sortPairsByKey key pairs) = sortPairsByKey key pairs := by
  have : Std.Total (pairLe key) := ⟨pairLe_total key⟩
  have : IsTrans (α × α) (pairLe key) := ⟨fun _ _ _ => pairLe_trans⟩
  exact (List.pairwise_insertionSort _ pairs).insertionSort_eq

/-- Permuted lists of pairs are sorted to the same list when only equal pairs agree
in both keys. -/
theorem sortPairsByKey_eq_of_perm [Std.IsLinearOrder κ] {key : α → κ} {ps qs : List (α × α)}
    (hperm : ps.Perm qs)
    (hkey : ∀ p ∈ ps, ∀ q ∈ ps, key p.1 = key q.1 → key p.2 = key q.2 → p = q) :
    sortPairsByKey key ps = sortPairsByKey key qs := by
  have : Std.Total (pairLe key) := ⟨pairLe_total key⟩
  have : IsTrans (α × α) (pairLe key) := ⟨fun _ _ _ => pairLe_trans⟩
  apply insertionSort_eq_of_perm hperm
  intro p hp q hq hpq hqp
  have hfirst := Std.le_antisymm hpq.1 hqp.1
  exact hkey p hp q hq hfirst (Std.le_antisymm (hpq.2 hfirst) (hqp.2 hfirst.symm))

end Library
