import Mathlib.Data.List.Basic

/-!
# Self-delimiting codes

Words that can be cut off at the start of any text.  Such words may be put one behind another,
with no more than an end mark for the whole list.

Main results:

- Theorem {lit}`selfDelimiting_of_read`: a reader that undoes the code.
- Theorem {lit}`SelfDelimiting.terminated`: words up to an end mark.
- Theorem {lit}`SelfDelimiting.flatMap_injective`: words up to the end of the text.
-/

namespace Library

variable {α γ : Type}

/-- What starts with a word starts with no other word, and has one rest. -/
def SelfDelimiting (enc : α → List γ) : Prop :=
  ∀ a b u v, enc a ++ u = enc b ++ v → a = b ∧ u = v

/-- Words that a reader takes off any text. -/
theorem selfDelimiting_of_read {enc : α → List γ} (read : List γ → Option (α × List γ))
    (h : ∀ a u, read (enc a ++ u) = some (a, u)) : SelfDelimiting enc := by
  intro a b u v heq
  have hread : some (a, u) = some (b, v) := by
    rw [← h a u, ← h b v, heq]
  exact Prod.mk.inj (Option.some.inj hread)

namespace SelfDelimiting

variable {enc : α → List γ}

/-- Words behind one text. -/
theorem mark (h : SelfDelimiting enc) (start : List γ) :
    SelfDelimiting fun a => start ++ enc a := by
  intro a b u v heq
  simp only [List.append_assoc] at heq
  exact h a b u v (List.append_cancel_left heq)

/-- Lists of words up to an end mark that starts no word. -/
theorem terminated (h : SelfDelimiting enc) (stop : List γ)
    (hstop : ∀ a u v, enc a ++ u ≠ stop ++ v) :
    SelfDelimiting fun items : List α => items.flatMap enc ++ stop := by
  intro items others u v heq
  induction items generalizing others with
  | nil =>
      cases others with
      | nil => exact ⟨rfl, List.append_cancel_left heq⟩
      | cons b others =>
          simp only [List.flatMap_nil, List.nil_append, List.flatMap_cons, List.append_assoc] at heq
          exact absurd heq.symm (hstop b _ _)
  | cons a items ih =>
      cases others with
      | nil =>
          simp only [List.flatMap_nil, List.nil_append, List.flatMap_cons, List.append_assoc] at heq
          exact absurd heq (hstop a _ _)
      | cons b others =>
          simp only [List.flatMap_cons, List.append_assoc] at heq
          obtain ⟨hab, hrest⟩ := h a b _ _ heq
          obtain ⟨hitems, huv⟩ := ih others (by simpa only [List.append_assoc] using hrest)
          exact ⟨by rw [hab, hitems], huv⟩

/-- Lists of words, none of them empty, up to the end of the text. -/
theorem flatMap_injective (h : SelfDelimiting enc) (hne : ∀ a, enc a ≠ []) :
    Function.Injective fun items : List α => items.flatMap enc := by
  intro items others heq
  induction items generalizing others with
  | nil =>
      cases others with
      | nil => rfl
      | cons b others => simp [hne b] at heq
  | cons a items ih =>
      cases others with
      | nil => simp [hne a] at heq
      | cons b others =>
          simp only [List.flatMap_cons] at heq
          obtain ⟨hab, hrest⟩ := h a b _ _ heq
          rw [hab, ih hrest]

end SelfDelimiting

end Library
