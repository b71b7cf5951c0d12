import EvilResp.Error
import EvilResp.Library.Float64
import EvilResp.Library.Result

/-!
# Option lists

Every control command takes option/value pairs.  The loop over them, the numbers
they hold and the errors they raise are shared by all parsers.

Main results:

- Theorem {lit}`quiet_applyOptions`: a loop whose options never raise a multi-line
  error never raises one.
- Theorem {lit}`parseProbability_inRange`: an accepted probability lies between zero
  and a hundred.
-/

namespace EvilResp

open Library

/-- What a command of the proxy results in. -/
abbrev AppResult (α : Type) := Except AppError α

/-- A rejected control command. -/
def invalid (message : String) : AppError :=
  .evilConfig message

/-- Split a list into consecutive pairs and at most one leftover. -/
def asChunks2 {α : Type} : List α → List (α × α) × List α
  | a :: b :: rest =>
      let (chunks, remainder) := asChunks2 rest
      ((a, b) :: chunks, remainder)
  | remainder => ([], remainder)

section

variable {α β : Type}

/-- Every list is the pairs of its members in order and what is left of it. -/
theorem flatten_asChunks2 (items : List α) :
    (asChunks2 items).1.flatMap (fun pair => [pair.1, pair.2]) ++ (asChunks2 items).2 = items ∧
      (asChunks2 items).2.length ≤ 1 := by
  induction items using asChunks2.induct with
  | case1 a b rest chunks remainder heq ih =>
      rw [heq] at ih
      simpa [asChunks2, heq] using ih
  | case2 remainder hshort =>
      cases remainder with
      | nil => exact ⟨rfl, Nat.zero_le 1⟩
      | cons a remainder =>
          cases remainder with
          | nil => exact ⟨rfl, le_rfl⟩
          | cons b rest => exact absurd rfl (hshort a b rest)

/-- Pairs with at most one item behind them are cut as they were. -/
theorem asChunks2_flatten {remainder : List α} (hremainder : remainder.length ≤ 1)
    (pairs : List (α × α)) :
    asChunks2 (pairs.flatMap (fun pair => [pair.1, pair.2]) ++ remainder) =
      (pairs, remainder) := by
  induction pairs with
  | nil =>
      match remainder with
      | [] => rfl
      | [item] => rfl
      | _ :: _ :: _ => simp at hremainder
  | cons pair pairs ih =>
      simp only [List.flatMap_cons, List.cons_append, List.nil_append, asChunks2, ih]

/-- Cutting does not look at the items. -/
theorem asChunks2_map (g : α → β) (items : List α) :
    asChunks2 (items.map g) =
      ((asChunks2 items).1.map (Prod.map g g), (asChunks2 items).2.map g) := by
  rcases flatten_asChunks2 items with ⟨hitems, hremainder⟩
  have hrest : ((asChunks2 items).2.map g).length ≤ 1 := by rwa [List.length_map]
  have hpairs := asChunks2_flatten hrest ((asChunks2 items).1.map (Prod.map g g))
  rw [← hpairs]
  congr 1
  conv_lhs => rw [← hitems]
  rw [List.map_append, List.map_flatMap, List.flatMap_map]
  rfl

end

/-- Apply option/value pairs from left to right.  Each option names the slot it
fills; a slot that is filled twice is a duplicate. -/
def applyOptions {σ : Type} (apply : σ → String → String → AppResult (σ × Nat))
    (duplicate : AppError) : List (String × String) → List Nat → σ → AppResult σ
  | [], _, config => .ok config
  | (option, value) :: options, seen, config => do
      let (config, index) ← apply config option value
      if index ∈ seen then .error duplicate
      else applyOptions apply duplicate options (index :: seen) config

/-! ## Numbers -/

/-- A percentage. -/
def parseProbability (value : String) : AppResult F64 :=
  match F64.parse value with
  | .error error => .error (invalid ("invalid probability: " ++ error.message))
  | .ok probability =>
      if F64.inRange .zero .hundred probability then .ok probability
      else
        .error (invalid ("probability " ++ probability.display ++ " is outside 0.00-100.00"))

/-- An unsigned decimal integer of a width, for the callers that keep the reason. -/
def parseUnsigned (width : Nat) (value : String) : Except IntErrorKind Nat :=
  (parseInteger 0 (2 ^ width - 1) value).map Int.toNat

/-- An unsigned 64-bit integer of digits only.  The messages are the caller's. -/
def parseDigitsOnly (notDecimal tooLarge : String) (value : String) : AppResult Nat :=
  if value.isEmpty ∨ !value.toList.all Char.isDigit then .error (invalid notDecimal)
  else
    match parseUnsigned 64 value with
    | .ok n => .ok n
    | .error _ => .error (invalid tooLarge)

/-- An accepted probability lies between zero and a hundred. -/
theorem parseProbability_inRange {value : String} {probability : F64}
    (h : parseProbability value = .ok probability) :
    F64.inRange .zero .hundred probability = true := by
  unfold parseProbability at h
  split at h
  · cases h
  · split at h <;> rename_i hrange
    · cases h
      exact hrange
    · cases h

/-! ## Single-line errors -/

/-- A computation that raises no multi-line error. -/
def Quiet {α : Type} (x : AppResult α) : Prop :=
  ∀ error, x = .error error → SingleLine error.message

/-- A result is quiet. -/
@[simp] theorem quiet_ok {α : Type} {a : α} : Quiet (.ok a : AppResult α) := by
  rintro error ⟨⟩

/-- An error is quiet if its message is on one line. -/
@[simp] theorem quiet_error {α : Type} {error : AppError} :
    Quiet (.error error : AppResult α) ↔ SingleLine error.message := by
  constructor
  · intro h
    exact h error rfl
  · rintro h error ⟨⟩
    exact h

/-- Two quiet steps are quiet together. -/
theorem quiet_bind {α β : Type} {x : AppResult α} {f : α → AppResult β} (hx : Quiet x)
    (hf : ∀ a, x = .ok a → Quiet (f a)) : Quiet (x >>= f) := by
  intro error herror
  rcases bind_eq_error_iff.mp herror with h | ⟨a, ha, h⟩
  · exact hx error h
  · exact hf a ha error h

/-- Mapping a result does not change the message of an error. -/
@[simp] theorem quiet_map {α β : Type} {x : AppResult α} {f : α → β} :
    Quiet (x.map f) ↔ Quiet x := by
  cases x <;> simp

/-- A rejection is on one line if its reason is. -/
@[simp] theorem singleLine_invalid {message : String} :
    SingleLine (invalid message).message ↔ SingleLine message := by
  have htext : (invalid message).message = "invalid evil configuration: " ++ message := rfl
  rw [htext, singleLine_append]
  exact and_iff_right (singleLine_ofList rfl)

/-- Such a rejection is quiet. -/
theorem quiet_invalid {α : Type} {message : String} (h : SingleLine message) :
    Quiet (.error (invalid message) : AppResult α) := by
  simpa using h

/-- A condition between two quiet results. -/
theorem quiet_ite {α : Type} {p : Prop} [Decidable p] {x y : AppResult α} (hx : Quiet x)
    (hy : Quiet y) : Quiet (if p then x else y) := by
  split
  · exact hx
  · exact hy

/-- Options are quiet together if each is, by induction on them. -/
theorem quiet_applyOptions {σ : Type} {apply : σ → String → String → AppResult (σ × Nat)}
    {duplicate : AppError} (happly : ∀ config option value, Quiet (apply config option value))
    (hduplicate : SingleLine duplicate.message) (options : List (String × String)) :
    ∀ (seen : List Nat) (config : σ), Quiet (applyOptions apply duplicate options seen config) := by
  induction options with
  | nil =>
      intro seen config
      exact quiet_ok
  | cons pair options ih =>
      intro seen config
      obtain ⟨option, value⟩ := pair
      refine quiet_bind (happly config option value) fun step _ => ?_
      exact quiet_ite (quiet_error.mpr hduplicate) (ih _ _)

/-- The reasons for a number that cannot be read are on one line. -/
theorem singleLine_intErrorKind (error : IntErrorKind) : SingleLine error.message := by
  cases error <;> exact singleLine_ofList rfl

/-- A bad probability is refused on one line. -/
theorem quiet_parseProbability (value : String) : Quiet (parseProbability value) := by
  unfold parseProbability
  split
  · rename_i error herror
    apply quiet_invalid
    rw [singleLine_append]
    exact ⟨singleLine_ofList rfl, F64.singleLine_parseError error⟩
  · apply quiet_ite quiet_ok
    apply quiet_invalid
    have hbefore : SingleLine "probability " := singleLine_ofList rfl
    have hafter : SingleLine " is outside 0.00-100.00" :=
      singleLine_ofList rfl
    rw [singleLine_append, singleLine_append]
    exact ⟨⟨hbefore, F64.singleLine_display _⟩, hafter⟩

/-- A bad number is refused on one line. -/
theorem quiet_parseDigitsOnly {notDecimal tooLarge : String} (hdecimal : SingleLine notDecimal)
    (hlarge : SingleLine tooLarge) (value : String) :
    Quiet (parseDigitsOnly notDecimal tooLarge value) := by
  unfold parseDigitsOnly
  apply quiet_ite (quiet_invalid hdecimal)
  split
  · exact quiet_ok
  · exact quiet_invalid hlarge

end EvilResp
