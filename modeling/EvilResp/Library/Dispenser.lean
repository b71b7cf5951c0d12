import Mathlib.Data.List.Nodup

/-!
# Numbered tickets

A dispenser hands out tickets that are numbered within a round.  A new round starts the
numbers again.

Main results:

- Theorem {lit}`Dispenser.numbered_take`: a ticket keeps the numbers of every round free
  of gaps and repetitions.
- Theorem {lit}`Dispenser.numbered_restart`: so does a new round.
-/

namespace Library

/-- A counter that starts over in every round, with all that it has issued. -/
structure Dispenser where
  round : Nat := 0
  next : Nat := 0
  /-- The tickets handed out so far, in order. -/
  issued : List (Nat × Nat) := []

namespace Dispenser

/-- Issue the next number. -/
def take (d : Dispenser) : Dispenser :=
  { d with next := d.next + 1, issued := d.issued ++ [(d.round, d.next)] }

/-- Begin the next round. -/
def restart (d : Dispenser) : Dispenser :=
  { d with round := d.round + 1, next := 0 }

/-- The numbers handed out in one round, in order. -/
def numbersOf (issued : List (Nat × Nat)) (round : Nat) : List Nat :=
  (issued.filter (·.1 = round)).map Prod.snd

/-- The numbers of every round are those from zero on, and no ticket is issued twice. -/
structure Numbered (d : Dispenser) : Prop where
  numbers : ∀ round, numbersOf d.issued round = List.range (numbersOf d.issued round).length
  current : (numbersOf d.issued d.round).length = d.next
  past : ∀ ticket ∈ d.issued, ticket.1 ≤ d.round
  nodup : d.issued.Nodup

/-- The numbers of a round, in two parts. -/
theorem numbersOf_append (issued later : List (Nat × Nat)) (round : Nat) :
    numbersOf (issued ++ later) round = numbersOf issued round ++ numbersOf later round := by
  simp [numbersOf]

/-- A new dispenser has issued nothing. -/
theorem numbered_empty : Numbered {} where
  numbers := fun _ => rfl
  current := rfl
  past := by simp
  nodup := List.nodup_nil

/-- The next ticket was not issued before. -/
theorem Numbered.fresh {d : Dispenser} (h : d.Numbered) : (d.round, d.next) ∉ d.issued := by
  intro hissued
  have hnumber : d.next ∈ numbersOf d.issued d.round :=
    List.mem_map.mpr ⟨_, List.mem_filter.mpr ⟨hissued, by simp⟩, rfl⟩
  rw [h.numbers, h.current, List.mem_range] at hnumber
  exact Nat.lt_irrefl _ hnumber

/-- Issuing a number keeps the rounds in order. -/
theorem numbered_take {d : Dispenser} (h : d.Numbered) : d.take.Numbered where
  numbers := by
    intro round
    simp only [take, numbersOf_append]
    by_cases hround : d.round = round
    · subst hround
      have hnew : numbersOf [(d.round, d.next)] d.round = [d.next] := by simp [numbersOf]
      rw [hnew, List.length_append, List.length_singleton, List.range_succ, ← h.numbers,
        h.current]
    · have hnew : numbersOf [(d.round, d.next)] round = [] := by simp [numbersOf, hround]
      rw [hnew, List.append_nil]
      exact h.numbers round
  current := by
    have hnew : numbersOf [(d.round, d.next)] d.round = [d.next] := by simp [numbersOf]
    simp only [take, numbersOf_append]
    rw [hnew, List.length_append, h.current]
    rfl
  past := by
    intro ticket hticket
    rcases List.mem_append.mp hticket with hold | hnew
    · exact h.past ticket hold
    · rw [List.mem_singleton.mp hnew]
      exact Nat.le_refl d.round
  nodup := h.nodup.append (List.nodup_singleton _) (by simpa using h.fresh)

/-- So does starting over. -/
theorem numbered_restart {d : Dispenser} (h : d.Numbered) : d.restart.Numbered where
  numbers := h.numbers
  current := by
    have hnone : numbersOf d.issued (d.round + 1) = [] := by
      rw [numbersOf, List.map_eq_nil_iff, List.filter_eq_nil_iff]
      intro ticket hticket
      have hpast := h.past ticket hticket
      simp
      omega
    show (numbersOf d.issued (d.round + 1)).length = 0
    rw [hnone]
    rfl
  past := fun ticket hticket => Nat.le_succ_of_le (h.past ticket hticket)
  nodup := h.nodup

end Dispenser

end Library
