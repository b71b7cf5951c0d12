import Mathlib.Data.List.Basic

/-!
# Bounded random draws

A program that consumes a random number generator is represented by the tree of
its draws.  Every node asks for a number below a bound and continues with the
answer, so a statement about every outcome of the generator is a statement about
every path of the tree.  A draw from an empty range has no answer; it is the
form a panic takes here.

Main results:

- Theorem {lit}`Draw.all_bind`: the weakest precondition of a sequence is the
  weakest precondition of its parts.
- Theorem {lit}`Draw.run_of_all`: a postcondition of every path holds of the run
  against every concrete source, and that run exists.
-/

namespace Library

/-- A computation that draws bounded natural numbers before it answers. -/
inductive Draw (α : Type) where
  | done (value : α)
  | choose (bound : Nat) (next : Fin bound → Draw α)

namespace Draw

variable {α β γ : Type}

/-- Continue every finished path of a computation. -/
def bind : Draw α → (α → Draw β) → Draw β
  | done a, f => f a
  | choose n next, f => choose n fun i => (next i).bind f

instance : Monad Draw where
  pure := done
  bind := bind

@[simp] theorem pure_eq (a : α) : (pure a : Draw α) = done a :=
  rfl

@[simp] theorem done_bind (a : α) (f : α → Draw β) : (done a >>= f) = f a :=
  rfl

@[simp] theorem choose_bind (n : Nat) (next : Fin n → Draw α) (f : α → Draw β) :
    (choose n next >>= f) = choose n fun i => next i >>= f :=
  rfl

/-- Finishing immediately is a right unit of sequencing. -/
theorem bind_done (x : Draw α) : (x >>= done) = x := by
  induction x with
  | done a => rfl
  | choose n next ih => exact congrArg (choose n) (funext ih)

/-- Sequencing is associative. -/
theorem bind_assoc (x : Draw α) (f : α → Draw β) (g : β → Draw γ) :
    ((x >>= f) >>= g) = (x >>= fun a => f a >>= g) := by
  induction x with
  | done a => rfl
  | choose n next ih => exact congrArg (choose n) (funext ih)

instance : LawfulMonad Draw :=
  LawfulMonad.mk' Draw (fun x => bind_done x) (fun _ _ => rfl) bind_assoc

/-! ## Primitive draws -/

/-- One number below {lit}`bound`. -/
def range (bound : Nat) : Draw (Fin bound) :=
  choose bound done

/-- A draw that no generator can answer. -/
def panic : Draw α :=
  choose 0 Fin.elim0

/-- One element of a list. -/
def pick (items : List α) : Draw α :=
  choose items.length fun i => done (items.get i)

/-- Repeat one draw, collecting the answers in order. -/
def replicate : Nat → Draw α → Draw (List α)
  | 0, _ => done []
  | n + 1, x => do
      let a ← x
      let rest ← replicate n x
      return a :: rest

/-! ## Every outcome -/

/-- {lit}`All P x` says that no path of {lit}`x` draws from an empty range and
that every answer satisfies {lit}`P`. -/
def All (P : α → Prop) : Draw α → Prop
  | done a => P a
  | choose n next => 0 < n ∧ ∀ i, (next i).All P

@[simp] theorem all_done {P : α → Prop} {a : α} : (done a).All P ↔ P a :=
  Iff.rfl

@[simp] theorem all_choose {P : α → Prop} {n : Nat} {next : Fin n → Draw α} :
    (choose n next).All P ↔ 0 < n ∧ ∀ i, (next i).All P :=
  Iff.rfl

/-- The weakest precondition of a sequence composes. -/
@[simp] theorem all_bind {P : β → Prop} {x : Draw α} {f : α → Draw β} :
    (x >>= f).All P ↔ x.All fun a => (f a).All P := by
  induction x with
  | done a => rfl
  | choose n next ih =>
      simp only [choose_bind, all_choose]
      exact and_congr_right fun _ => forall_congr' fun i => ih i

@[simp] theorem all_map {P : β → Prop} {x : Draw α} {f : α → β} :
    (f <$> x).All P ↔ x.All fun a => P (f a) := by
  rw [map_eq_pure_bind, all_bind]
  rfl

theorem all_mono {P Q : α → Prop} {x : Draw α} (hx : x.All P) (h : ∀ a, P a → Q a) :
    x.All Q := by
  induction x with
  | done a => exact h a hx
  | choose n next ih => exact ⟨hx.1, fun i => ih i (hx.2 i)⟩

theorem all_and {P Q : α → Prop} {x : Draw α} (hP : x.All P) (hQ : x.All Q) :
    x.All fun a => P a ∧ Q a := by
  induction x with
  | done a => exact ⟨hP, hQ⟩
  | choose n next ih => exact ⟨hP.1, fun i => ih i (hP.2 i) (hQ.2 i)⟩

/-- A fact that does not depend on the answer holds of every path of a
computation that never draws from an empty range. -/
theorem all_of_forall {P Q : α → Prop} {x : Draw α} (hx : x.All Q) (h : ∀ a, P a) :
    x.All P :=
  all_mono hx fun a _ => h a

@[simp] theorem all_pick {P : α → Prop} {items : List α} :
    (pick items).All P ↔ items ≠ [] ∧ ∀ a ∈ items, P a := by
  simp only [pick, all_choose, all_done, List.length_pos_iff, List.forall_mem_iff_get]

/-- Repeating a draw collects answers that all satisfy its postcondition. -/
theorem all_replicate {P : α → Prop} {x : Draw α} (hx : x.All P) (n : Nat) :
    (replicate n x).All fun items => items.length = n ∧ ∀ a ∈ items, P a := by
  induction n with
  | zero => simp [replicate]
  | succ n ih =>
      simp only [replicate, all_bind]
      refine all_mono hx fun a ha => all_mono ih fun items hitems => ?_
      obtain ⟨hlength, hmem⟩ := hitems
      simp [hlength, ha]
      exact hmem

/-! ## Safety -/

/-- No path of a computation draws from an empty range. -/
abbrev Safe (x : Draw α) : Prop :=
  x.All fun _ => True

theorem Safe.all {P : α → Prop} {x : Draw α} (hx : x.Safe) (h : ∀ a, P a) : x.All P :=
  all_of_forall hx h

theorem safe_bind {x : Draw α} {f : α → Draw β} (hx : x.Safe) (hf : ∀ a, (f a).Safe) :
    (x >>= f).Safe :=
  all_bind.mpr (all_of_forall hx hf)

theorem safe_map {x : Draw α} {f : α → β} (hx : x.Safe) : (f <$> x).Safe :=
  all_map.mpr hx

theorem safe_pick {items : List α} (h : items ≠ []) : (pick items).Safe :=
  all_pick.mpr ⟨h, fun _ _ => trivial⟩

theorem safe_replicate {x : Draw α} (hx : x.Safe) (n : Nat) : (replicate n x).Safe :=
  all_of_forall (all_replicate hx n) fun _ => trivial

/-! ## Running against a source -/

/-- The raw outcomes of one generator.  An outcome may depend on every bound that
was drawn below so far, the current one first. -/
abbrev Source := List Nat → Nat

/-- Answer the draws of a computation from a source, after some draws were made.
The result is {lit}`none` when a draw asks for an element of an empty range. -/
def runFrom (source : Source) : List Nat → Draw α → Option α
  | _, done a => some a
  | drawn, choose n next =>
      if h : 0 < n then
        runFrom source (n :: drawn) (next ⟨source (n :: drawn) % n, Nat.mod_lt _ h⟩)
      else none

/-- Answer the draws of a computation from the start of a source. -/
def run (source : Source) (x : Draw α) : Option α :=
  runFrom source [] x

/-- A postcondition of every path holds of the run against every source. -/
theorem runFrom_of_all {P : α → Prop} {x : Draw α} (hx : x.All P) (source : Source)
    (drawn : List Nat) : ∃ a, runFrom source drawn x = some a ∧ P a := by
  induction x generalizing drawn with
  | done a => exact ⟨a, rfl, hx⟩
  | choose n next ih =>
      obtain ⟨hpos, hnext⟩ := hx
      rw [runFrom, dif_pos hpos]
      exact ih _ (hnext _) _

theorem run_of_all {P : α → Prop} {x : Draw α} (hx : x.All P) (source : Source) :
    ∃ a, run source x = some a ∧ P a :=
  runFrom_of_all hx source []

end Draw

end Library
