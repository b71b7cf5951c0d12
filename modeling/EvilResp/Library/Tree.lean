import Mathlib.Data.List.Basic

/-!
# Positions and edits in labelled trees

A type of trees is any type with labelled children.  A position is the list of
labels that leads from the root to a node.  An edit replaces the nodes at some
positions, no two of them above each other, and keeps the shell of every node that
is not below one of them.

Main results:

- Theorem {lit}`Tree.Edited.below`: an edit of the children is an edit of the tree.
-/

namespace Library
namespace Tree

variable {α σ : Type}

/-- The node that a position leads to. -/
def at? [DecidableEq σ] (children : α → List (σ × α)) : List σ → α → Option α
  | [], t => some t
  | s :: p, t => ((children t).lookup s).bind (at? children p)

/-- Neither position is the other one or above it. -/
def Incomparable (p q : List σ) : Prop :=
  ¬ p <+: q ∧ ¬ q <+: p

theorem incomparable_cons {s : σ} {p q : List σ} :
    Incomparable (s :: p) (s :: q) ↔ Incomparable p q := by
  simp [Incomparable, List.cons_prefix_cons]

theorem incomparable_of_ne {s s' : σ} (h : s ≠ s') (p q : List σ) :
    Incomparable (s :: p) (s' :: q) := by
  constructor
  · intro hprefix
    exact h (List.cons_prefix_cons.mp hprefix).1
  · intro hprefix
    exact h (List.cons_prefix_cons.mp hprefix).1.symm

section Edits

variable [DecidableEq σ] (children : α → List (σ × α)) (shell change : α → α → Prop)

/-- Two trees that differ by changes at some positions. -/
structure Edited (t t' : α) (ps : List (List σ)) : Prop where
  incomparable : ps.Pairwise Incomparable
  changed : ∀ p ∈ ps, ∃ c c',
    at? children p t = some c ∧ at? children p t' = some c' ∧ change c c'
  kept : ∀ p, (∀ q ∈ ps, ¬ q <+: p) → Option.Rel shell (at? children p t) (at? children p t')

/-- Edits of labelled children, one after another. -/
inductive EditedList : List (σ × α) → List (σ × α) → List (List σ) → Prop where
  | nil : EditedList [] [] []
  | cons {s : σ} {c c' : α} {cs cs' : List (σ × α)} {ps qs : List (List σ)} :
      Edited children shell change c c' ps → EditedList cs cs' qs →
      EditedList ((s, c) :: cs) ((s, c') :: cs') (ps.map (s :: ·) ++ qs)

variable {children shell change} {t t' : α} {cs cs' : List (σ × α)} {ps : List (List σ)}

theorem lookup_cons_ne {s s' : σ} (h : s ≠ s') (c : α) (cs : List (σ × α)) :
    ((s', c) :: cs).lookup s = cs.lookup s := by
  rw [List.lookup_cons, beq_false_of_ne h]

/-- With distinct labels, the branches are the answers of the lookup. -/
theorem mem_iff_lookup {cs : List (σ × α)} (hnodup : (cs.map Prod.fst).Nodup) {s : σ} {c : α} :
    (s, c) ∈ cs ↔ cs.lookup s = some c := by
  induction cs with
  | nil => simp
  | cons branch cs ih =>
      obtain ⟨s', c'⟩ := branch
      obtain ⟨hfresh, hnodup⟩ := List.nodup_cons.mp hnodup
      by_cases hs : s = s'
      · subst hs
        have hnot : (s, c) ∉ cs := fun h => hfresh (List.mem_map.mpr ⟨(s, c), h, rfl⟩)
        simp [hnot, eq_comm]
      · rw [lookup_cons_ne hs, ← ih hnodup]
        simp [hs]

/-- A change of the whole tree. -/
theorem Edited.here (h : change t t') : Edited children shell change t t' [[]] where
  incomparable := List.pairwise_singleton _ _
  changed := by
    intro p hp
    obtain rfl := List.mem_singleton.mp hp
    exact ⟨t, t', rfl, rfl, h⟩
  kept := by
    intro p hp
    exact absurd List.nil_prefix (hp [] (List.mem_singleton_self _))

/-- No edit at all. -/
theorem Edited.refl (h : ∀ t, shell t t) (t : α) : Edited children shell change t t [] where
  incomparable := List.Pairwise.nil
  changed := by simp
  kept := by
    intro p _
    cases at? children p t with
    | none => exact .none
    | some c => exact .some (h c)

/-- An edit below the children starts with the label of one of them. -/
theorem EditedList.mem_labels (h : EditedList children shell change cs cs' ps) :
    ∀ p ∈ ps, ∃ s ∈ cs.map Prod.fst, ∃ q, p = s :: q := by
  induction h with
  | nil => simp
  | @cons s c c' cs cs' ps qs hedit hrest ih =>
      intro p hp
      rcases List.mem_append.mp hp with hp | hp
      · obtain ⟨q, -, rfl⟩ := List.mem_map.mp hp
        exact ⟨s, List.mem_cons_self, q, rfl⟩
      · obtain ⟨s', hs', q, rfl⟩ := ih p hp
        exact ⟨s', List.mem_cons_of_mem _ hs', q, rfl⟩

theorem EditedList.incomparable (h : EditedList children shell change cs cs' ps)
    (hnodup : (cs.map Prod.fst).Nodup) : ps.Pairwise Incomparable := by
  induction h with
  | nil => exact List.Pairwise.nil
  | @cons s c c' cs cs' ps qs hedit hrest ih =>
      obtain ⟨hfresh, hnodup⟩ := List.nodup_cons.mp hnodup
      refine List.pairwise_append.mpr ⟨?_, ih hnodup, ?_⟩
      · rw [List.pairwise_map]
        exact hedit.incomparable.imp incomparable_cons.mpr
      · intro p hp q hq
        obtain ⟨p', -, rfl⟩ := List.mem_map.mp hp
        obtain ⟨s', hs', q', rfl⟩ := hrest.mem_labels q hq
        apply incomparable_of_ne
        rintro rfl
        exact hfresh hs'

theorem EditedList.changed (h : EditedList children shell change cs cs' ps)
    (hnodup : (cs.map Prod.fst).Nodup) :
    ∀ s p, s :: p ∈ ps → ∃ c c',
      (cs.lookup s).bind (at? children p) = some c ∧
        (cs'.lookup s).bind (at? children p) = some c' ∧ change c c' := by
  induction h with
  | nil => simp
  | @cons s c c' cs cs' ps qs hedit hrest ih =>
      intro s' p hp
      obtain ⟨hfresh, hnodup⟩ := List.nodup_cons.mp hnodup
      rcases List.mem_append.mp hp with hp | hp
      · obtain ⟨q, hq, heq⟩ := List.mem_map.mp hp
        obtain ⟨rfl, rfl⟩ := List.cons.inj heq
        simpa using hedit.changed q hq
      · obtain ⟨s'', hs'', q, heq⟩ := hrest.mem_labels _ hp
        obtain ⟨rfl, rfl⟩ := List.cons.inj heq
        have hne : s' ≠ s := by
          rintro rfl
          exact hfresh hs''
        rw [lookup_cons_ne hne, lookup_cons_ne hne]
        exact ih hnodup s' p hp

theorem EditedList.kept (h : EditedList children shell change cs cs' ps) :
    ∀ s p, (∀ q ∈ ps, ¬ q <+: s :: p) →
      Option.Rel shell ((cs.lookup s).bind (at? children p))
        ((cs'.lookup s).bind (at? children p)) := by
  induction h with
  | nil =>
      intro s p _
      exact .none
  | @cons s c c' cs cs' ps qs hedit hrest ih =>
      intro s' p hp
      by_cases hs : s' = s
      · subst hs
        have hbelow : ∀ q ∈ ps, ¬ q <+: p := by
          intro q hq hprefix
          apply hp (s' :: q)
          · exact List.mem_append_left _ (List.mem_map_of_mem hq)
          · exact List.cons_prefix_cons.mpr ⟨rfl, hprefix⟩
        simpa using hedit.kept p hbelow
      · have hrest' : ∀ q ∈ qs, ¬ q <+: s' :: p := fun q hq =>
          hp q (List.mem_append_right _ hq)
        rw [lookup_cons_ne hs, lookup_cons_ne hs]
        exact ih s' p hrest'

/-- An edit of the children is an edit of the tree. -/
theorem Edited.below (hshell : shell t t') (hnodup : ((children t).map Prod.fst).Nodup)
    (h : EditedList children shell change (children t) (children t') ps) :
    Edited children shell change t t' ps where
  incomparable := h.incomparable hnodup
  changed := by
    intro p hp
    obtain ⟨s, -, q, rfl⟩ := h.mem_labels p hp
    exact h.changed hnodup s q hp
  kept := by
    intro p hp
    cases p with
    | nil => exact .some hshell
    | cons s p => exact h.kept s p hp

end Edits

end Tree
end Library
