import EvilResp.Library.Draw
import EvilResp.Library.Float64

/-!
# Random draws

The distributions the proxy draws from, in terms of bounded draws.  A float below
a hundred is drawn as a multiple of two to the minus fifty-two; a weighted coin
compares a 64-bit draw with its scaled probability.

Main results:

- Theorem {lit}`all_percent`: a percentage draw lies below a hundred.
- Theorem {lit}`all_genRatio`: a ratio draw has no outcome but true and false.
-/

namespace EvilResp

open Library

/-- A fair coin. -/
def genBool : Draw Bool :=
  .choose 2 fun i => .done (i = 1)

/-- True with probability {lit}`numerator / denominator`. -/
def genRatio (numerator denominator : Nat) : Draw Bool :=
  .choose denominator fun i => .done (i.val < numerator)

/-- One unsigned integer of a width. -/
def genBits (width : Nat) : Draw Nat :=
  .choose (2 ^ width) fun i => .done i.val

/-- One signed 64-bit integer. -/
def genI64 : Draw Int64 :=
  .choose (2 ^ 64) fun i => .done (Int64.ofNat i.val)

/-- One natural number in a half-open range. -/
def genRange (low high : Nat) : Draw Nat :=
  .choose (high - low) fun i => .done (low + i.val)

/-- One float in {lit}`0.0..100.0`. -/
def genPercent : Draw F64 :=
  .choose (2 ^ 52) fun i => .done (.finite false ((i.val : ℚ) * 100 / 2 ^ 52))

/-- True with the probability given, which must lie in the unit interval. -/
def genBoolWith (probability : F64) : Draw Bool :=
  match probability with
  | .finite negative magnitude =>
      if magnitude = 1 ∧ !negative then .done true
      else if magnitude = 0 ∨ (magnitude < 1 ∧ !negative) then
        .choose (2 ^ 64) fun i => .done (i.val < (magnitude * 2 ^ 64).floor.toNat)
      else .panic
  | _ => .panic

@[simp] theorem all_genBool {P : Bool → Prop} : genBool.All P ↔ P false ∧ P true := by
  simp [genBool, Fin.forall_fin_two]

/-- A ratio draw has no outcome but true and false. -/
theorem all_genRatio {P : Bool → Prop} {numerator denominator : Nat} (hpos : 0 < denominator)
    (hP : ∀ b, P b) : (genRatio numerator denominator).All P :=
  ⟨hpos, fun _ => hP _⟩

theorem all_genBits {P : Nat → Prop} {width : Nat} (hP : ∀ n, n < 2 ^ width → P n) :
    (genBits width).All P :=
  ⟨Nat.two_pow_pos width, fun i => hP i i.isLt⟩

theorem all_genI64 {P : Int64 → Prop} (hP : ∀ n, P n) : genI64.All P :=
  ⟨by decide, fun _ => hP _⟩

theorem all_genRange {P : Nat → Prop} {low high : Nat} (hlt : low < high)
    (hP : ∀ n, low ≤ n → n < high → P n) : (genRange low high).All P :=
  ⟨by omega, fun i => hP _ (by omega) (by omega)⟩

/-- A percentage draw is a finite number below a hundred. -/
theorem all_percent {P : F64 → Prop}
    (hP : ∀ q : ℚ, 0 ≤ q → q < 100 → P (.finite false q)) : genPercent.All P := by
  refine ⟨by decide, fun i => hP _ (by positivity) ?_⟩
  have hi : ((i : Nat) : ℚ) < 2 ^ 52 := by exact_mod_cast i.isLt
  rw [div_lt_iff₀ (by positivity)]
  linarith

end EvilResp
