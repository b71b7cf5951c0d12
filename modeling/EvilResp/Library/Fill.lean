import Mathlib.Data.List.Perm.Basic
import Mathlib.Data.List.Nodup

/-!
# Filling the slots of a state

A loop over items sets one slot of a state for each of them.  It refuses items that cannot be
read and slots that were filled before.  As long as setting one slot does not look at the
others, the order of the items has no influence.

Main results:

- Theorem {lit}`fill_eq_some_iff`: the loop accepts what can be read and names no slot twice.
- Theorem {lit}`fill_perm`: the order does not matter.
- Theorem {lit}`fill_repeated`: a name that occurs twice is refused.
- Theorem {lit}`fill_accepts`: names that occur once are accepted.
-/

namespace Library

variable {κ τ σ ι ν : Type}

/-- Read the items from left to right and set the slot of each. -/
def fill [DecidableEq ι] (read : κ → Option τ) (slot : τ → ι) (set : σ → τ → σ) :
    List κ → List ι → σ → Option σ
  | [], _, s => some s
  | item :: items, seen, s =>
      match read item with
      | none => none
      | some a =>
          if slot a ∈ seen then none else fill read slot set items (slot a :: seen) (set s a)

/-- What is read from each item, in order. -/
abbrev Reads (read : κ → Option τ) : List κ → List τ → Prop :=
  List.Forall₂ fun item a => read item = some a

variable {read : κ → Option τ} {slot : τ → ι} {set : σ → τ → σ}

theorem exists_reads {items : List κ} (h : ∀ item ∈ items, ∃ a, read item = some a) :
    ∃ settings, Reads read items settings := by
  induction items with
  | nil => exact ⟨[], .nil⟩
  | cons item items ih =>
      obtain ⟨a, hread⟩ := h item List.mem_cons_self
      obtain ⟨settings, hreads⟩ := ih fun other hother => h other (List.mem_cons_of_mem _ hother)
      exact ⟨a :: settings, .cons hread hreads⟩

/-- Where related members with one name on the left have one name on the right, different names
on the right stand for different names on the left. -/
theorem nodup_map_of_forall₂ {α β : Type} {R : α → β → Prop} {f : α → ν} {g : β → ι}
    (hname : ∀ x y a b, R x a → R y b → f x = f y → g a = g b) {l : List α} {r : List β}
    (h : List.Forall₂ R l r) (hnodup : (r.map g).Nodup) : (l.map f).Nodup := by
  have hpartner : ∀ {l r}, List.Forall₂ R l r → ∀ x ∈ l, ∃ a ∈ r, R x a := by
    intro l r h
    induction h with
    | nil => simp
    | cons hhead htail ih =>
        intro x hx
        rcases List.mem_cons.mp hx with rfl | hx
        · exact ⟨_, List.mem_cons_self, hhead⟩
        · obtain ⟨a, ha, hrelated⟩ := ih x hx
          exact ⟨a, List.mem_cons_of_mem _ ha, hrelated⟩
  induction h with
  | nil => exact List.nodup_nil
  | cons hhead htail ih =>
      rw [List.map_cons, List.nodup_cons] at hnodup ⊢
      refine ⟨fun hmem => hnodup.1 ?_, ih hnodup.2⟩
      obtain ⟨y, hy, heq⟩ := List.mem_map.mp hmem
      obtain ⟨b, hb, hrelated⟩ := hpartner htail y hy
      rw [hname _ y _ b hhead hrelated heq.symm]
      exact List.mem_map_of_mem hb

/-- Different slots are set in any order. -/
def Separate (slot : τ → ι) (set : σ → τ → σ) : Prop :=
  ∀ a b s, slot a ≠ slot b → set (set s a) b = set (set s b) a

theorem foldl_set_perm (hseparate : Separate slot set) {settings others : List τ}
    (hperm : settings.Perm others) (hnodup : (settings.map slot).Nodup) (s : σ) :
    settings.foldl set s = others.foldl set s := by
  apply hperm.foldl_eq'
  intro a ha b hb s
  by_cases hslot : slot a = slot b
  · rw [List.inj_on_of_nodup_map hnodup ha hb hslot]
  · exact hseparate a b s hslot

variable [DecidableEq ι]

theorem fill_cons_eq_some_iff {item : κ} {items : List κ} {seen : List ι} {s t : σ} :
    fill read slot set (item :: items) seen s = some t ↔
      ∃ a, read item = some a ∧ slot a ∉ seen ∧
        fill read slot set items (slot a :: seen) (set s a) = some t := by
  rw [fill]
  cases hread : read item with
  | none => simp
  | some a =>
      by_cases hseen : slot a ∈ seen
      · simp [hseen]
      · simp [hseen]

/-- The loop accepts what can be read and names no slot twice, and then sets all slots. -/
theorem fill_eq_some_iff {items : List κ} {seen : List ι} {s t : σ} :
    fill read slot set items seen s = some t ↔
      ∃ settings, Reads read items settings ∧ (settings.map slot).Nodup ∧
        (∀ a ∈ settings, slot a ∉ seen) ∧ settings.foldl set s = t := by
  induction items generalizing seen s with
  | nil =>
      constructor
      · intro h
        exact ⟨[], .nil, List.nodup_nil, by simp, Option.some.inj h⟩
      · rintro ⟨settings, hreads, -, -, rfl⟩
        cases hreads
        rfl
  | cons item items ih =>
      rw [fill_cons_eq_some_iff]
      constructor
      · rintro ⟨a, hitem, hseen, hrest⟩
        obtain ⟨settings, hreads, hnodup, hfresh, hset⟩ := ih.mp hrest
        refine ⟨a :: settings, .cons hitem hreads, ?_, ?_, hset⟩
        · apply List.nodup_cons.mpr
          refine ⟨fun hmem => ?_, hnodup⟩
          obtain ⟨b, hb, hslot⟩ := List.mem_map.mp hmem
          exact hfresh b hb (hslot ▸ List.mem_cons_self)
        · intro b hb
          rcases List.mem_cons.mp hb with rfl | hb
          · exact hseen
          · exact fun hmem => hfresh b hb (List.mem_cons_of_mem _ hmem)
      · rintro ⟨settings, hreads, hnodup, hfresh, hset⟩
        cases hreads with
        | @cons _ a _ settings hitem hreads =>
            rw [List.map_cons, List.nodup_cons] at hnodup
            refine ⟨a, hitem, hfresh a List.mem_cons_self,
              ih.mpr ⟨settings, hreads, hnodup.2, fun b hb hmem => ?_, hset⟩⟩
            rcases List.mem_cons.mp hmem with heq | hmem
            · exact hnodup.1 (heq ▸ List.mem_map_of_mem hb)
            · exact hfresh b (List.mem_cons_of_mem _ hb) hmem

/-- What one order accepts, the other accepts with the same result. -/
theorem fill_of_perm (hseparate : Separate slot set) {items others : List κ}
    (hperm : items.Perm others) {s t : σ} (h : fill read slot set items [] s = some t) :
    fill read slot set others [] s = some t := by
  obtain ⟨settings, hreads, hnodup, -, rfl⟩ := fill_eq_some_iff.mp h
  obtain ⟨settings', hreads', hsettings⟩ := List.perm_comp_forall₂ hperm.symm hreads
  apply fill_eq_some_iff.mpr
  refine ⟨settings', hreads', ?_, by simp, ?_⟩
  · exact ((hsettings.map slot).nodup_iff).mpr hnodup
  · exact (foldl_set_perm hseparate hsettings.symm hnodup s).symm

/-- The order of the items does not matter. -/
theorem fill_perm (hseparate : Separate slot set) {items others : List κ}
    (hperm : items.Perm others) (s : σ) :
    fill read slot set items [] s = fill read slot set others [] s := by
  ext t
  constructor
  · exact fill_of_perm hseparate hperm
  · exact fill_of_perm hseparate hperm.symm

/-- A name that occurs twice is refused. -/
theorem fill_repeated {name : κ → ν}
    (hname : ∀ x y a b, read x = some a → read y = some b → name x = name y → slot a = slot b)
    {items : List κ} (hrepeated : ¬ (items.map name).Nodup) (seen : List ι) (s : σ) :
    fill read slot set items seen s = none := by
  rw [Option.eq_none_iff_forall_ne_some]
  intro t h
  obtain ⟨settings, hreads, hnodup, -⟩ := fill_eq_some_iff.mp h
  exact hrepeated (nodup_map_of_forall₂ hname hreads hnodup)

/-- Items that can be read and that fill a slot under one name only are accepted, as long as no
name occurs twice. -/
theorem fill_accepts {name : κ → ν}
    (hslot : ∀ x y a b, read x = some a → read y = some b → slot a = slot b → name x = name y)
    {items : List κ} (hread : ∀ item ∈ items, ∃ a, read item = some a)
    (hnames : (items.map name).Nodup) (s : σ) :
    ∃ t, fill read slot set items [] s = some t := by
  obtain ⟨settings, hreads⟩ := exists_reads hread
  have hslots : (settings.map slot).Nodup := by
    apply nodup_map_of_forall₂ _ hreads.flip hnames
    intro a b x y hx hy heq
    exact hslot x y a b hx hy heq
  exact ⟨_, fill_eq_some_iff.mpr ⟨settings, hreads, hslots, by simp, rfl⟩⟩

end Library
