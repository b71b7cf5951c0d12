import EvilResp.Library.Draw

/-!
# Possible outcomes

An answer is possible if some path of the draws ends with it.  Every path is taken under some
source, so the possible answers are the ones that the sources give.

Main results:

- Theorem {lit}`Draw.outcome_bind_iff`: the outcomes of a sequence are those of its parts.
- Theorem {lit}`Draw.outcome_iff_run`: an answer is possible exactly if some source gives it.
-/

namespace Library
namespace Draw

variable {α β : Type}

/-- Some path ends with an answer. -/
def Outcome : Draw α → α → Prop
  | done b, a => b = a
  | choose _ next, a => ∃ i, (next i).Outcome a

@[simp] theorem outcome_done_iff {a b : α} : (done b).Outcome a ↔ b = a :=
  Iff.rfl

@[simp] theorem outcome_choose_iff {n : Nat} {next : Fin n → Draw α} {a : α} :
    (choose n next).Outcome a ↔ ∃ i, (next i).Outcome a :=
  Iff.rfl

/-- The outcomes of a sequence are those of its parts. -/
theorem outcome_bind_iff {x : Draw α} {f : α → Draw β} {b : β} :
    (x >>= f).Outcome b ↔ ∃ a, x.Outcome a ∧ (f a).Outcome b := by
  induction x with
  | done a => simp
  | choose n next ih =>
      simp only [choose_bind, outcome_choose_iff, ih]
      exact exists_comm.trans (exists_congr fun a => by rw [exists_and_right])

theorem outcome_map_iff {x : Draw α} {f : α → β} {b : β} :
    (f <$> x).Outcome b ↔ ∃ a, x.Outcome a ∧ f a = b := by
  rw [map_eq_pure_bind, outcome_bind_iff]
  rfl

theorem outcome_pick_iff {items : List α} {a : α} : (pick items).Outcome a ↔ a ∈ items := by
  rw [List.mem_iff_get]
  rfl

/-- A postcondition of every path holds of every outcome. -/
theorem Outcome.of_all {P : α → Prop} {x : Draw α} {a : α} (h : x.Outcome a) (hx : x.All P) :
    P a := by
  induction x with
  | done b => exact h ▸ hx
  | choose n next ih =>
      obtain ⟨i, hi⟩ := h
      exact ih i hi (hx.2 i)

/-- A computation that never draws from an empty range has an outcome. -/
theorem exists_outcome {P : α → Prop} {x : Draw α} (hx : x.All P) : ∃ a, x.Outcome a ∧ P a := by
  induction x with
  | done a => exact ⟨a, rfl, hx⟩
  | choose n next ih =>
      obtain ⟨a, ha, hP⟩ := ih ⟨0, hx.1⟩ (hx.2 _)
      exact ⟨a, ⟨⟨0, hx.1⟩, ha⟩, hP⟩

/-! ## Sources -/

/-- A run asks a source only about the draws that are still to be made. -/
theorem runFrom_congr {source other : Source} (x : Draw α) (drawn : List Nat)
    (h : ∀ draws, drawn.length < draws.length → source draws = other draws) :
    runFrom source drawn x = runFrom other drawn x := by
  induction x generalizing drawn with
  | done a => rfl
  | choose n next ih =>
      simp only [runFrom, h (n :: drawn) (by simp)]
      split
      · apply ih
        intro draws hdraws
        exact h draws (Nat.lt_of_succ_lt hdraws)
      · rfl

/-- A path is taken by the source that answers the draws along it. -/
theorem Outcome.exists_runFrom {x : Draw α} {a : α} (h : x.Outcome a) (drawn : List Nat) :
    ∃ source, runFrom source drawn x = some a := by
  induction x generalizing drawn with
  | done b => exact ⟨fun _ => 0, congrArg some h⟩
  | choose n next ih =>
      obtain ⟨i, hi⟩ := h
      obtain ⟨source, hsource⟩ := ih i hi (n :: drawn)
      have hpos : 0 < n := Nat.lt_of_le_of_lt (Nat.zero_le _) i.isLt
      -- the first draw is answered with the branch, the later ones as before
      refine ⟨fun draws => if draws.length = drawn.length + 1 then i else source draws, ?_⟩
      rw [runFrom, dif_pos hpos, ← hsource]
      have hfirst : (if (n :: drawn).length = drawn.length + 1 then (i : Nat)
          else source (n :: drawn)) % n = i := by
        rw [if_pos (List.length_cons ..), Nat.mod_eq_of_lt i.isLt]
      simp only [hfirst]
      apply runFrom_congr
      intro draws hdraws
      rw [List.length_cons] at hdraws
      exact if_neg (by omega)

theorem outcome_of_runFrom {source : Source} {x : Draw α} {a : α} {drawn : List Nat}
    (h : runFrom source drawn x = some a) : x.Outcome a := by
  induction x generalizing drawn with
  | done b => exact Option.some.inj h
  | choose n next ih =>
      rw [runFrom] at h
      split at h
      · exact ⟨_, ih _ h⟩
      · cases h

/-- An answer is possible exactly if some source gives it. -/
theorem outcome_iff_run {x : Draw α} {a : α} :
    x.Outcome a ↔ ∃ source, run source x = some a := by
  constructor
  · intro h
    exact h.exists_runFrom []
  · rintro ⟨source, h⟩
    exact outcome_of_runFrom h

end Draw
end Library
