import EvilResp.Library.Draw
import Mathlib.Algebra.BigOperators.Fin
import Mathlib.Data.Nat.Factorial.Basic
import Mathlib.Data.Set.Card
import Mathlib.Tactic.LinearCombination
import Mathlib.Tactic.Ring

/-!
# Uniform choice with one candidate stored

The paths of a computation are counted by the tuples that answer its draws.  A reservoir
replaces the held item by the newest of {lit}`k` with one answer out of {lit}`k`, and so holds
every item at the end of equally many paths.

Main results:

- Theorem {lit}`Draw.ncard_answer`: the tuples that lead to an answer are counted path by path.
- Theorem {lit}`Draw.Asks.answer_isSome`: which tuples answer the draws.
- Theorem {lit}`Draw.card_tuples_reservoir`: the weights of the held item and of the items to
  come.
- Theorem {lit}`Draw.card_tuples_sample`: every item is selected by equally many tuples.
-/

namespace Library.Draw

variable {α β : Type}

/-! ## Tuples of answers -/

/-- Answer the draws of a computation from a tuple with one number for each of them. -/
def answer : Draw α → List Nat → Option α
  | done a, [] => some a
  | done _, _ :: _ => none
  | choose _ _, [] => none
  | choose n next, i :: tuple => if h : i < n then (next ⟨i, h⟩).answer tuple else none

/-- Every path draws below the given bounds, one after another, and no more. -/
def Asks : Draw α → List Nat → Prop
  | done _, bounds => bounds = []
  | choose n next, bounds => ∃ rest, bounds = n :: rest ∧ ∀ i, (next i).Asks rest

theorem Asks.map {x : Draw α} {bounds : List Nat} (h : x.Asks bounds) (f : α → β) :
    (f <$> x).Asks bounds := by
  induction x generalizing bounds with
  | done a => exact h
  | choose n next ih =>
      obtain ⟨rest, hbounds, hnext⟩ := h
      exact ⟨rest, hbounds, fun i => ih i (hnext i)⟩

/-- The tuples that are answered have one number below each bound. -/
theorem Asks.answer_isSome {x : Draw α} {bounds : List Nat} (h : x.Asks bounds)
    {tuple : List Nat} : (x.answer tuple).isSome ↔ List.Forall₂ (· < ·) tuple bounds := by
  induction x generalizing bounds tuple with
  | done a =>
      obtain rfl : bounds = [] := h
      cases tuple with
      | nil => simp [answer]
      | cons i tuple => simp [answer]
  | choose n next ih =>
      obtain ⟨rest, rfl, hnext⟩ := h
      cases tuple with
      | nil => simp [answer]
      | cons i tuple =>
          rw [answer, List.forall₂_cons]
          by_cases hi : i < n
          · rw [dif_pos hi, ih ⟨i, hi⟩ (hnext ⟨i, hi⟩)]
            simp [hi]
          · simp [hi]

/-- A postcondition of every path holds of what a tuple leads to. -/
theorem All.of_answer {P : α → Prop} {x : Draw α} (hx : x.All P) {tuple : List Nat} {a : α}
    (h : x.answer tuple = some a) : P a := by
  induction x generalizing tuple with
  | done b =>
      cases tuple with
      | nil =>
          obtain rfl := Option.some.inj h
          exact hx
      | cons i tuple => cases h
  | choose n next ih =>
      cases tuple with
      | nil => cases h
      | cons i tuple =>
          rw [answer] at h
          split at h
          · exact ih _ (hx.2 _) h
          · cases h

/-- The tuples that lead to an answer with a property. -/
def tuples (p : α → Prop) [DecidablePred p] : Draw α → Finset (List Nat)
  | done a => if p a then {[]} else ∅
  | choose n next =>
      Finset.univ.biUnion fun i : Fin n =>
        ((next i).tuples p).map ⟨List.cons i.val, List.cons_injective⟩

variable {p : α → Prop} [DecidablePred p]

theorem mem_tuples {x : Draw α} {tuple : List Nat} :
    tuple ∈ x.tuples p ↔ ∃ a, x.answer tuple = some a ∧ p a := by
  induction x generalizing tuple with
  | done a =>
      cases tuple with
      | nil =>
          by_cases ha : p a
          · simp [tuples, answer, ha]
          · simp [tuples, answer, ha]
      | cons i tuple =>
          by_cases ha : p a
          · simp [tuples, answer, ha]
          · simp [tuples, answer, ha]
  | choose n next ih =>
      simp only [tuples, Finset.mem_biUnion, Finset.mem_univ, true_and, Finset.mem_map,
        Function.Embedding.coeFn_mk]
      constructor
      · rintro ⟨i, rest, hrest, rfl⟩
        obtain ⟨a, ha, hp⟩ := (ih i).mp hrest
        exact ⟨a, by rw [answer, dif_pos i.isLt]; exact ha, hp⟩
      · rintro ⟨a, ha, hp⟩
        cases tuple with
        | nil => cases ha
        | cons i tuple =>
            rw [answer] at ha
            split at ha
            · rename_i hi
              exact ⟨⟨i, hi⟩, tuple, (ih _).mpr ⟨a, ha, hp⟩, rfl⟩
            · cases ha

/-- The tuples that lead to an answer are as many as the paths. -/
theorem ncard_answer (x : Draw α) :
    { tuple | ∃ a, x.answer tuple = some a ∧ p a }.ncard = (x.tuples p).card := by
  rw [← Set.ncard_coe_finset]
  congr 1
  ext tuple
  rw [Finset.mem_coe, mem_tuples, Set.mem_ofPred_eq]

theorem card_tuples_done (a : α) : ((done a).tuples p).card = if p a then 1 else 0 := by
  rw [tuples]
  split <;> rfl

/-- The paths behind different answers are different. -/
theorem card_tuples_choose {n : Nat} (next : Fin n → Draw α) :
    ((choose n next).tuples p).card = ∑ i, ((next i).tuples p).card := by
  rw [tuples, Finset.card_biUnion]
  · simp only [Finset.card_map]
  · intro i _ j _ hij
    rw [Function.onFun, Finset.disjoint_left]
    intro tuple hi hj
    simp only [Finset.mem_map, Function.Embedding.coeFn_mk] at hi hj
    obtain ⟨u, -, rfl⟩ := hi
    obtain ⟨v, -, hv⟩ := hj
    exact hij (Fin.ext (List.cons.inj hv).1.symm)

theorem card_tuples_map {q : β → Prop} [DecidablePred q] (x : Draw α) (f : α → β)
    (hq : ∀ a, q (f a) ↔ p a) : ((f <$> x).tuples q).card = (x.tuples p).card := by
  induction x with
  | done a =>
      rw [show (f <$> done a) = done (f a) from rfl, card_tuples_done, card_tuples_done]
      simp only [hq]
  | choose n next ih =>
      rw [show (f <$> choose n next) = choose n fun i => f <$> next i from rfl,
        card_tuples_choose, card_tuples_choose]
      exact Finset.sum_congr rfl fun i _ => ih i

/-! ## The reservoir -/

/-- Keep the newest of the items seen with one answer out of their number. -/
def reservoir : List α → Nat → α → Draw α
  | [], _, held => done held
  | item :: rest, seen, held =>
      choose (seen + 1) fun i => reservoir rest (seen + 1) (if i.val = 0 then item else held)

/-- Select one item of a list. -/
def sample : List α → Draw (Option α)
  | [] => done none
  | item :: rest => some <$> reservoir rest 1 item

theorem asks_reservoir (items : List α) (seen : Nat) (held : α) :
    (reservoir items seen held).Asks (List.range' (seen + 1) items.length) := by
  induction items generalizing seen held with
  | nil => rfl
  | cons item rest ih => exact ⟨_, List.range'_succ, fun i => ih _ _⟩

/-- With {lit}`n` items, the draws are below {lit}`2`, {lit}`3` and so on up to {lit}`n`. -/
theorem asks_sample (items : List α) :
    (sample items).Asks (List.range' 2 (items.length - 1)) := by
  cases items with
  | nil => rfl
  | cons item rest => exact (asks_reservoir rest 1 item).map some

theorem all_reservoir (items : List α) (seen : Nat) (held : α) :
    (reservoir items seen held).All fun a => a ∈ held :: items := by
  induction items generalizing seen held with
  | nil => exact List.mem_singleton_self held
  | cons item rest ih =>
      refine ⟨Nat.succ_pos seen, fun i => all_mono (ih (seen + 1) _) fun a ha => ?_⟩
      rcases List.mem_cons.mp ha with rfl | hrest
      · split
        · exact List.mem_cons_of_mem _ List.mem_cons_self
        · exact List.mem_cons_self
      · exact List.mem_cons_of_mem _ (List.mem_cons_of_mem _ hrest)

/-- An item of the list is selected, unless there is none. -/
theorem all_sample (items : List α) :
    (sample items).All fun selected =>
      (selected = none → items = []) ∧ ∀ a, selected = some a → a ∈ items := by
  cases items with
  | nil => exact ⟨fun _ => rfl, fun a ha => by cases ha⟩
  | cons item rest =>
      apply all_map.mpr
      apply all_mono (all_reservoir rest 1 item)
      intro a ha
      constructor
      · intro hnone
        cases hnone
      · intro b hb
        obtain rfl := Option.some.inj hb
        exact ha

/-- The newest item is kept with the first answer, the held one with every other. -/
theorem card_tuples_reservoir_cons (item : α) (rest : List α) (seen : Nat) (held : α) :
    ((reservoir (item :: rest) seen held).tuples p).card =
      ((reservoir rest (seen + 1) item).tuples p).card +
        seen * ((reservoir rest (seen + 1) held).tuples p).card := by
  rw [reservoir, card_tuples_choose, Fin.sum_univ_succ]
  simp only [Fin.val_zero, if_true, Fin.val_succ, Nat.succ_ne_zero, if_false, Finset.sum_const,
    Finset.card_univ, Fintype.card_fin, smul_eq_mul]

/-- At the end, the held item weighs as much as the items seen, and every later item one. -/
theorem card_tuples_reservoir (items : List α) {seen : Nat} (hseen : 0 < seen) (held : α) :
    ((reservoir items seen held).tuples p).card * seen.factorial =
      (seen + items.length - 1).factorial * ((if p held then seen else 0) + items.countP p) := by
  induction items generalizing seen held with
  | nil =>
      obtain ⟨seen, rfl⟩ := Nat.exists_eq_add_one.mpr hseen
      rw [reservoir, card_tuples_done, List.length_nil, List.countP_nil, Nat.factorial_succ]
      split
      · simp [mul_comm]
      · simp
  | cons item rest ih =>
      have hpos : 0 < seen + 1 := by omega
      have hitem := ih hpos item
      have hheld := ih hpos held
      have hlength : seen + 1 + rest.length - 1 = seen + (item :: rest).length - 1 := by
        rw [List.length_cons]
        omega
      rw [hlength, Nat.factorial_succ] at hitem hheld
      rw [card_tuples_reservoir_cons, List.countP_cons]
      apply Nat.eq_of_mul_eq_mul_left hpos
      simp only [decide_eq_true_eq] at hitem hheld ⊢
      have hone : (if p item then seen + 1 else 0) = (seen + 1) * if p item then 1 else 0 := by
        split <;> simp
      have hmany : seen * (if p held then seen + 1 else 0) =
          (seen + 1) * if p held then seen else 0 := by
        split
        · exact mul_comm seen (seen + 1)
        · rfl
      rw [hone] at hitem
      linear_combination hitem + seen * hheld +
        (seen + (item :: rest).length - 1).factorial * hmany

/-- With {lit}`n` items, each is selected by {lit}`(n - 1)!` of the tuples. -/
theorem card_tuples_sample {q : Option α → Prop} [DecidablePred q] {items : List α}
    (hne : items ≠ []) : ((sample items).tuples q).card =
      (items.length - 1).factorial * items.countP fun a => q (some a) := by
  cases items with
  | nil => exact absurd rfl hne
  | cons item rest =>
      have hweights := card_tuples_reservoir (p := fun a => q (some a)) rest one_pos item
      rw [sample, card_tuples_map _ some fun _ => Iff.rfl]
      rw [Nat.factorial_one, mul_one] at hweights
      rw [hweights, List.countP_cons, List.length_cons, Nat.add_comm 1]
      simp only [decide_eq_true_eq]
      rw [Nat.add_comm (rest.countP _)]

/-- All answers of a selection. -/
theorem ncard_sample {items : List α} (hne : items ≠ []) :
    { tuple | ((sample items).answer tuple).isSome }.ncard = items.length.factorial := by
  have hcard := card_tuples_sample (q := fun _ => True) hne
  rw [← ncard_answer] at hcard
  simp only [and_true, ← Option.isSome_iff_exists] at hcard
  rw [hcard]
  simp only [decide_true, List.countP_true]
  rw [mul_comm]
  exact Nat.mul_factorial_pred (List.length_pos_iff.mpr hne).ne'

/-- Every item of a list without repetitions is selected by equally many tuples. -/
theorem ncard_sample_some {items : List α} (hnodup : items.Nodup) {a : α} (ha : a ∈ items) :
    { tuple | (sample items).answer tuple = some (some a) }.ncard =
      (items.length - 1).factorial := by
  classical
  have hcard := card_tuples_sample (q := fun selected => selected = some a) (List.ne_nil_of_mem ha)
  rw [← ncard_answer] at hcard
  simp only [exists_eq_right, Option.some.injEq] at hcard
  have hcount : (items.countP fun b => b = a) = 1 := by
    rw [← List.count_eq_one_of_mem hnodup ha]
    exact List.countP_congr fun b _ => by simp
  rw [hcard, hcount, mul_one]

end Library.Draw
