import EvilResp.Config.Chaos
import EvilResp.Library.Fill

/-!
# The order of options

Every option of a control command fills a slot of its own, whatever was configured before.
Therefore the order in which options are given has no influence, and a name that is given
twice is refused.

Main results:

- Theorem {lit}`SlotWise.applyOptions_perm` and theorem {lit}`SlotWise.applyOptions_repeated`:
  what follows for a loop whose options fill slots.
- Theorem {lit}`options_order`: the order of the options of each command does not matter.
-/

namespace EvilResp

open Library

/-! ## Loops over options -/

/-- Some name occurs twice, up to case. -/
def RepeatsName (pairs : List (String × String)) : Prop :=
  ¬ pairs.Pairwise fun pair other => eqIgnoreAsciiCase pair.1 other.1 = false

theorem repeatsName_iff {pairs : List (String × String)} :
    RepeatsName pairs ↔ ¬ (pairs.map fun pair => toAsciiUppercase pair.1).Nodup := by
  apply not_congr
  rw [List.Nodup, List.pairwise_map]
  apply List.Pairwise.iff
  intro pair other
  rw [← Bool.not_eq_true, eqIgnoreAsciiCase_iff_uppercase]

section

variable {σ ι : Type}

/-- What an option fills in the initial settings. -/
def readOption (apply : σ → String → String → AppResult (σ × ι)) (initial : σ)
    (pair : String × String) : Option (σ × ι) :=
  (apply initial pair.1 pair.2).toOption

/-- Options that fill slots: what an option fills does not depend on the settings before, it is
copied into them, and the name of the option decides on the slot. -/
structure SlotWise (apply : σ → String → String → AppResult (σ × ι)) (initial : σ)
    (copy : ι → σ → σ → σ) : Prop where
  reads : ∀ config pair, (apply config pair.1 pair.2).toOption =
    (readOption apply initial pair).map fun filled => (copy filled.2 filled.1 config, filled.2)
  separate : ∀ i j a b config, i ≠ j → copy j b (copy i a config) = copy i a (copy j b config)
  named : ∃ slotOf : String → ι, ∀ pair filled, readOption apply initial pair = some filled →
    filled.2 = slotOf (toAsciiUppercase pair.1)

variable [DecidableEq ι]

/-- A loop over options, as the filling of slots. -/
def fillOptions (apply : σ → String → String → AppResult (σ × ι)) (initial : σ)
    (copy : ι → σ → σ → σ) : List (String × String) → List ι → σ → Option σ :=
  fill (readOption apply initial) Prod.snd fun config filled => copy filled.2 filled.1 config

variable {apply : σ → String → String → AppResult (σ × ι)} {initial : σ} {copy : ι → σ → σ → σ}

theorem SlotWise.fillOptions_perm (h : SlotWise apply initial copy)
    {pairs others : List (String × String)} (hperm : pairs.Perm others) (config : σ) :
    fillOptions apply initial copy pairs [] config =
      fillOptions apply initial copy others [] config := by
  apply fill_perm _ hperm
  intro a b config hne
  exact h.separate a.2 b.2 a.1 b.1 config hne

theorem SlotWise.fillOptions_repeated (h : SlotWise apply initial copy)
    {pairs : List (String × String)} (hrepeated : RepeatsName pairs) (config : σ) :
    fillOptions apply initial copy pairs [] config = none := by
  obtain ⟨slotOf, hslot⟩ := h.named
  apply fill_repeated _ (repeatsName_iff.mp hrepeated)
  intro pair other filled filled' hfilled hfilled' hname
  rw [hslot pair filled hfilled, hslot other filled' hfilled', hname]

end

/-- An option that fills one slot with what it reads. -/
theorem slot_of_bind {α σ ι : Type} {x : AppResult α} {f : α → σ} {slot : ι} {filled : σ × ι}
    (h : (x >>= fun a => .ok (f a, slot) : AppResult (σ × ι)).toOption = some filled) :
    filled.2 = slot := by
  cases x with
  | error error => cases h
  | ok a =>
      obtain rfl := Option.some.inj h
      rfl

section

variable {σ : Type} {apply : σ → String → String → AppResult (σ × Nat)} {initial : σ}
  {copy : Nat → σ → σ → σ}

/-- The shared loop fills slots. -/
theorem SlotWise.toOption_applyOptions (h : SlotWise apply initial copy) (duplicate : AppError)
    (pairs : List (String × String)) (seen : List Nat) (config : σ) :
    (applyOptions apply duplicate pairs seen config).toOption =
      fillOptions apply initial copy pairs seen config := by
  induction pairs generalizing seen config with
  | nil => rfl
  | cons pair pairs ih =>
      rw [applyOptions, toOption_bind, h.reads config pair, fillOptions, fill]
      cases readOption apply initial pair with
      | none => rfl
      | some filled =>
          simp only [Option.map_some, Option.bind_some]
          by_cases hseen : filled.2 ∈ seen
          · rw [if_pos hseen, if_pos hseen]
            rfl
          · rw [if_neg hseen, if_neg hseen]
            exact ih _ _

end

/-! ## Commands without an order -/

/-- The arguments of option/value pairs. -/
def optionWords (pairs : List (String × String)) : List String :=
  pairs.flatMap fun pair => [pair.1, pair.2]

theorem asChunks2_optionWords (pairs : List (String × String)) :
    asChunks2 (optionWords pairs) = (pairs, []) := by
  have hshort : ([] : List String).length ≤ 1 := Nat.zero_le 1
  have hwords := asChunks2_flatten hshort pairs
  rwa [List.append_nil] at hwords

theorem length_optionWords (pairs : List (String × String)) :
    (optionWords pairs).length = 2 * pairs.length := by
  induction pairs with
  | nil => rfl
  | cons pair pairs ih =>
      rw [List.length_cons, Nat.mul_succ, ← ih]
      rfl

/-- The order of the pairs does not matter to a command, and repeated names are refused. -/
structure OrderFree {α : Type} (f : List String → AppResult α) : Prop where
  perm : ∀ {pairs others : List (String × String)}, pairs.Perm others →
    (f (optionWords pairs)).toOption = (f (optionWords others)).toOption
  repeated : ∀ {pairs : List (String × String)}, RepeatsName pairs →
    (f (optionWords pairs)).toOption = none

/-- A command that runs a loop of slots, and then looks at the settings and the number of
pairs. -/
theorem SlotWise.orderFree {α σ ι : Type} [DecidableEq ι]
    {apply : σ → String → String → AppResult (σ × ι)} {initial : σ} {copy : ι → σ → σ → σ}
    (h : SlotWise apply initial copy) {f : List String → AppResult α} (start : σ)
    (finish : Nat → σ → Option α)
    (hf : ∀ pairs, (f (optionWords pairs)).toOption =
      (fillOptions apply initial copy pairs [] start).bind (finish pairs.length)) :
    OrderFree f where
  perm hperm := by
    rw [hf, hf, h.fillOptions_perm hperm, hperm.length_eq]
  repeated hrepeated := by
    rw [hf, h.fillOptions_repeated hrepeated]
    rfl

theorem OrderFree.bind {α β : Type} {f : List String → AppResult α} (h : OrderFree f)
    (g : α → AppResult β) : OrderFree fun argv => f argv >>= g where
  perm hperm := by
    rw [toOption_bind, toOption_bind, h.perm hperm]
  repeated hrepeated := by
    rw [toOption_bind, h.repeated hrepeated]
    rfl

/-- A test of the words before the pairs. -/
theorem OrderFree.guarded {α : Type} {f : List String → AppResult α} (h : OrderFree f) (p : Prop)
    [Decidable p] (error : AppError) :
    OrderFree fun argv => if p then .error error else f argv := by
  by_cases hp : p
  · simp only [if_pos hp]
    exact ⟨fun _ => rfl, fun _ => rfl⟩
  · simp only [if_neg hp]
    exact h

/-! ## The commands -/

namespace TransportConfig

/-- Copy one slot. -/
def copySlot (i : Nat) (source config : TransportConfig) : TransportConfig :=
  match i with
  | 0 => { config with truncate := source.truncate }
  | 1 => { config with extra := source.extra }
  | 2 => { config with chunks := source.chunks }
  | 3 => { config with probability := source.probability }
  | 4 => { config with fault := { config.fault with action := source.fault.action } }
  | 5 => { config with fault := { config.fault with point := source.fault.point } }
  | 6 => { config with fault := { config.fault with durationMs := source.fault.durationMs } }
  | _ => config

theorem slotWise_applyOption : SlotWise applyOption {} copySlot where
  reads config pair := by
    unfold readOption applyOption
    split
    · cases parseCut pair.2 <;> rfl
    · cases parseExtra pair.2 <;> rfl
    · cases parseChunks pair.2 <;> rfl
    · cases parseProbability pair.2 <;> rfl
    · unfold FaultConfig.setAction
      split <;> rfl
    · unfold FaultConfig.setPoint
      split
      case h_5 => cases FaultConfig.decimal pair.2 <;> rfl
      all_goals rfl
    · unfold FaultConfig.setDuration
      cases FaultConfig.decimal pair.2 with
      | error error => rfl
      | ok ms =>
          simp only [ok_bind]
          split <;> rfl
    · rfl
  separate i j a b config hne := by
    unfold copySlot
    split <;> split <;> first | rfl | contradiction
  named := by
    refine ⟨fun
      | "TRUNCATE" => 0
      | "EXTRA" => 1
      | "CHUNKS" => 2
      | "PROBABILITY" => 3
      | "FAULT" => 4
      | "AT" => 5
      | _ => 6, fun pair filled hfilled => ?_⟩
    unfold readOption applyOption at hfilled
    generalize toAsciiUppercase pair.1 = name at hfilled ⊢
    split at hfilled
    case h_8 => cases hfilled
    all_goals exact slot_of_bind hfilled

theorem orderFree_updated (config : TransportConfig) : OrderFree config.updated := by
  apply slotWise_applyOption.orderFree config fun n config =>
    if n = 0 ∨ (config.fault.action ≠ .off ∧ config.truncate ≠ .off) then none else some config
  intro pairs
  have hoff : ¬ ((optionWords pairs).length = 1 ∧
      (optionWords pairs).head?.any (eqIgnoreAsciiCase · "OFF")) := by
    rintro ⟨hlength, -⟩
    rw [length_optionWords] at hlength
    omega
  rw [updated, if_neg hoff, asChunks2_optionWords]
  cases pairs with
  | nil => rfl
  | cons pair pairs =>
      simp only [ne_eq, reduceCtorEq, not_true_eq_false, or_self, if_false, List.length_cons,
        Nat.succ_ne_zero, false_or]
      rw [toOption_bind, slotWise_applyOption.toOption_applyOptions]
      congr 1
      funext config
      split <;> rfl

end TransportConfig

namespace GeneratorConfig

/-- Copy one slot. -/
def copySlot (i : Nat) (source config : GeneratorConfig) : GeneratorConfig :=
  match i with
  | 0 => { config with protocol := source.protocol }
  | 1 => { config with corpus := source.corpus }
  | 2 => { config with violations := source.violations }
  | _ => config

theorem slotWise_applyOption : SlotWise applyOption {} copySlot where
  reads config pair := by
    unfold readOption applyOption
    split
    · split <;> rfl
    · split <;> rfl
    · split <;> rfl
    · rfl
  separate i j a b config hne := by
    unfold copySlot
    split <;> split <;> first | rfl | contradiction
  named := by
    refine ⟨fun
      | "PROTOCOL" => 0
      | "CORPUS" => 1
      | _ => 2, fun pair filled hfilled => ?_⟩
    unfold readOption applyOption at hfilled
    generalize toAsciiUppercase pair.1 = name at hfilled ⊢
    split at hfilled
    case h_4 => cases hfilled
    all_goals
      split at hfilled <;> cases hfilled <;> rfl

theorem orderFree_updated (config : GeneratorConfig) : OrderFree config.updated := by
  apply slotWise_applyOption.orderFree config fun n config => if n = 0 then none else some config
  intro pairs
  rw [updated, asChunks2_optionWords]
  cases pairs with
  | nil => rfl
  | cons pair pairs =>
      simp only [ne_eq, reduceCtorEq, not_true_eq_false, or_self, if_false, List.length_cons,
        Nat.succ_ne_zero]
      rw [slotWise_applyOption.toOption_applyOptions]
      exact (Option.bind_fun_some _).symm

end GeneratorConfig

namespace LengthConfig

/-- Copy one slot. -/
def copySlot (i : Nat) (source config : LengthConfig) : LengthConfig :=
  match i with
  | 0 => { config with probability := source.probability }
  | 1 => { config with target := source.target }
  | 2 => { config with kind := source.kind }
  | _ => config

theorem slotWise_applyOption : SlotWise applyOption {} copySlot where
  reads config pair := by
    unfold readOption applyOption
    split
    · cases parseProbability pair.2 <;> rfl
    · cases Target.parse pair.2 <;> rfl
    · cases parseKind pair.2 <;> rfl
    · rfl
  separate i j a b config hne := by
    unfold copySlot
    split <;> split <;> first | rfl | contradiction
  named := by
    refine ⟨fun
      | "PROBABILITY" => 0
      | "TARGET" => 1
      | _ => 2, fun pair filled hfilled => ?_⟩
    unfold readOption applyOption at hfilled
    generalize toAsciiUppercase pair.1 = name at hfilled ⊢
    split at hfilled
    case h_4 => cases hfilled
    all_goals exact slot_of_bind hfilled

theorem orderFree_parseLength : OrderFree FramingConfig.parseLength := by
  apply slotWise_applyOption.orderFree {} fun _ config => some (.length config)
  intro pairs
  rw [FramingConfig.parseLength, asChunks2_optionWords]
  simp only [ne_eq, not_true_eq_false, if_false]
  rw [toOption_bind, slotWise_applyOption.toOption_applyOptions]
  rfl

end LengthConfig

namespace Chaos

/-- Copy one slot. -/
def copySlot (i : Nat) (source settings : UInt64 × ProtocolHash) : UInt64 × ProtocolHash :=
  match i with
  | 0 => (source.1, settings.2)
  | 1 => (settings.1, source.2)
  | _ => settings

theorem slotWise_applyOption (lib : Externals) :
    SlotWise (applyOption lib) (0, .blake3) copySlot where
  reads settings pair := by
    unfold readOption applyOption
    split
    · split <;> rfl
    · cases ProtocolHash.fromStr lib pair.2 <;> rfl
    · rfl
  separate i j a b settings hne := by
    unfold copySlot
    split <;> split <;> first | rfl | contradiction
  named := by
    refine ⟨fun
      | "SEED" => 0
      | _ => 1, fun pair filled hfilled => ?_⟩
    unfold readOption applyOption at hfilled
    generalize toAsciiUppercase pair.1 = name at hfilled ⊢
    split at hfilled
    · split at hfilled <;> cases hfilled
      rfl
    · exact slot_of_bind hfilled
    · cases hfilled

theorem orderFree_apply (lib : Externals) (config : EvilConfig)
    (debug chaos temperature : String) :
    OrderFree fun argv => apply lib config (debug :: chaos :: temperature :: argv) := by
  unfold apply
  apply OrderFree.guarded
  apply (slotWise_applyOption lib).orderFree (config.seed, .blake3) fun _ settings =>
    (parseTemperature temperature).toOption.bind fun temperature =>
      ((expand config temperature settings.1).map (·, settings.2)).toOption
  intro pairs
  rw [asChunks2_optionWords, toOption_bind]
  cases parseTemperature temperature with
  | error error => exact (Option.bind_fun_none _).symm
  | ok temperature =>
      rw [← (slotWise_applyOption lib).toOption_applyOptions (invalid "duplicate DEBUG CHAOS option")]
      cases hrun : applyOptions (applyOption lib) (invalid "duplicate DEBUG CHAOS option") pairs []
        (config.seed, .blake3) with
      | error error => simp [Except.toOption, hrun]
      | ok settings =>
          cases hexpand : expand config temperature settings.1 with
          | error error => simp [Except.toOption, hrun, hexpand]
          | ok next => simp [Except.toOption, hrun, hexpand]

end Chaos

namespace RedirectConfig

/-- One option with the upper-case name as its slot. -/
def applyNamed (lib : Externals) (settings : F64 × RedirectConfig) (option value : String) :
    AppResult ((F64 × RedirectConfig) × String) :=
  (applyOption lib settings (toAsciiUppercase option) value).map (·, toAsciiUppercase option)

/-- Copy the slot of a name. -/
def copySlot (name : String) (source settings : F64 × RedirectConfig) : F64 × RedirectConfig :=
  match name with
  | "PROBABILITY" => (source.1, settings.2)
  | "KIND" => (settings.1, { settings.2 with kind := source.2.kind })
  | "TARGET" => (settings.1, { settings.2 with target := source.2.target })
  | "SLOT" => (settings.1, { settings.2 with slot := source.2.slot })
  | "PHASE" => (settings.1, { settings.2 with phase := source.2.phase })
  | "KEY" => (settings.1, { settings.2 with key := source.2.key })
  | "UNTIL" => (settings.1, { settings.2 with cutoff := source.2.cutoff })
  | _ => settings

theorem slotWise_applyNamed (lib : Externals) :
    SlotWise (applyNamed lib) (.hundred, {}) copySlot where
  reads settings pair := by
    obtain ⟨probability, config⟩ := settings
    unfold readOption applyNamed applyOption
    dsimp only
    generalize toAsciiUppercase pair.1 = name
    split
    · cases parseProbability pair.2 <;> rfl
    · cases parseKind pair.2 <;> rfl
    · cases parseRedirectTarget lib pair.2 <;> rfl
    · cases parseSlot pair.2 <;> rfl
    · cases parsePhase pair.2 <;> rfl
    · cases parseKey pair.2 <;> rfl
    · cases parseCutoff pair.2 <;> rfl
    · rfl
  separate i j a b settings hne := by
    unfold copySlot
    split <;> split <;> first | rfl | contradiction
  named := by
    refine ⟨id, fun pair filled hfilled => ?_⟩
    unfold readOption applyNamed at hfilled
    obtain ⟨settings, -, rfl⟩ := map_eq_ok_iff.mp (toOption_eq_some_iff.mp hfilled)
    rfl

/-- The loop of the redirect options fills slots. -/
theorem toOption_applyOptions (lib : Externals) (pairs : List (String × String))
    (seen : List String) (settings : F64 × RedirectConfig) :
    (applyOptions lib pairs seen settings).toOption =
      fillOptions (applyNamed lib) (.hundred, {}) copySlot pairs seen settings := by
  induction pairs generalizing seen settings with
  | nil => rfl
  | cons pair pairs ih =>
      have hread := (slotWise_applyNamed lib).reads settings pair
      rw [fillOptions, fill, applyOptions]
      rw [applyNamed] at hread
      cases happly : applyOption lib settings (toAsciiUppercase pair.1) pair.2 with
      | error error =>
          rw [happly] at hread
          cases hfilled : readOption (applyNamed lib) (.hundred, {}) pair with
          | none =>
              dsimp only
              split <;> rfl
          | some filled =>
              rw [hfilled] at hread
              cases hread
      | ok next =>
          rw [happly] at hread
          cases hfilled : readOption (applyNamed lib) (.hundred, {}) pair with
          | none =>
              rw [hfilled] at hread
              cases hread
          | some filled =>
              rw [hfilled] at hread
              obtain ⟨rfl, hname⟩ := Prod.mk.inj (Option.some.inj hread)
              dsimp only
              rw [← hname]
              by_cases hseen : toAsciiUppercase pair.1 ∈ seen
              · rw [if_pos hseen, if_pos hseen]
                rfl
              · rw [if_neg hseen, if_neg hseen, ok_bind]
                exact ih _ _

theorem orderFree_parseTopology (lib : Externals) {first : String}
    (hfirst : eqIgnoreAsciiCase first "REDIRECT" = true) :
    OrderFree fun argv => parseTopology lib (first :: argv) := by
  apply (slotWise_applyNamed lib).orderFree (.hundred, {}) fun _ settings =>
    some (settings.1, some settings.2)
  intro pairs
  simp only [parseTopology, hfirst, asChunks2_optionWords, Bool.not_true, Bool.false_eq_true,
    if_false, ne_eq, not_true_eq_false]
  rw [← toOption_applyOptions]
  cases applyOptions lib pairs [] (.hundred, {}) <;> rfl

end RedirectConfig

/-- The words of a command in front of its option/value pairs. -/
inductive OptionCommand : List String → Prop where
  | transport {debug evil name : String} (hname : toAsciiUppercase name = "TRANSPORT") :
      OptionCommand [debug, evil, name]
  | generator {debug evil name : String} (hname : toAsciiUppercase name = "GENERATOR") :
      OptionCommand [debug, evil, name]
  | framingLength {debug evil name mode : String} (hname : toAsciiUppercase name = "FRAMING")
      (hmode : toAsciiUppercase mode = "LENGTH") : OptionCommand [debug, evil, name, mode]
  | topologyRedirect {debug evil name mode : String} (hname : toAsciiUppercase name = "TOPOLOGY")
      (hmode : eqIgnoreAsciiCase mode "REDIRECT" = true) : OptionCommand [debug, evil, name, mode]

theorem OptionCommand.orderFree (lib : Externals) (config : EvilConfig) {words : List String}
    (h : OptionCommand words) :
    OrderFree fun argv => config.applyDebugCommand lib (words ++ argv) := by
  cases h with
  | transport hname =>
      apply OrderFree.guarded
      simp only [hname]
      exact (config.transport.orderFree_updated).bind _
  | generator hname =>
      apply OrderFree.guarded
      simp only [hname]
      exact (config.generator.orderFree_updated).bind _
  | framingLength hname hmode =>
      have hparse (mode : String) (hmode : toAsciiUppercase mode = "LENGTH") :
          (fun argv => FramingConfig.parse (mode :: argv)) = FramingConfig.parseLength := by
        funext argv
        simp only [FramingConfig.parse, hmode]
      apply OrderFree.guarded
      simp only [hname]
      exact (hparse _ hmode ▸ LengthConfig.orderFree_parseLength).bind _
  | topologyRedirect hname hmode =>
      apply OrderFree.guarded
      simp only [hname]
      exact (RedirectConfig.orderFree_parseTopology lib hmode).bind _

/-- Both commands are accepted with one result, or both are rejected. -/
inductive SameOutcome {α : Type} : AppResult α → AppResult α → Prop where
  | accepted (a : α) : SameOutcome (.ok a) (.ok a)
  | rejected (error other : AppError) : SameOutcome (.error error) (.error other)

theorem sameOutcome_of_toOption {α : Type} {x y : AppResult α} (h : x.toOption = y.toOption) :
    SameOutcome x y := by
  cases x with
  | error error =>
      cases y with
      | error other => exact .rejected error other
      | ok b => cases h
  | ok a =>
      cases y with
      | error other => cases h
      | ok b =>
          obtain rfl := Option.some.inj h
          exact .accepted a

/-- The order of option/value pairs does not matter, and a repeated name is rejected. -/
theorem options_order (lib : Externals) (config : EvilConfig) (pairs : List (String × String)) :
    (∀ others, pairs.Perm others →
      (∀ words, OptionCommand words →
        SameOutcome (config.applyDebugCommand lib (words ++ optionWords pairs))
          (config.applyDebugCommand lib (words ++ optionWords others))) ∧
      ∀ debug chaos temperature,
        SameOutcome (Chaos.apply lib config (debug :: chaos :: temperature :: optionWords pairs))
          (Chaos.apply lib config (debug :: chaos :: temperature :: optionWords others))) ∧
    (RepeatsName pairs →
      (∀ words, OptionCommand words →
        ∃ error, config.applyDebugCommand lib (words ++ optionWords pairs) = .error error) ∧
      ∀ debug chaos temperature, ∃ error,
        Chaos.apply lib config (debug :: chaos :: temperature :: optionWords pairs) =
          .error error) := by
  constructor
  · intro others hperm
    constructor
    · intro words hwords
      exact sameOutcome_of_toOption ((hwords.orderFree lib config).perm hperm)
    · intro debug chaos temperature
      apply sameOutcome_of_toOption
      exact (Chaos.orderFree_apply lib config debug chaos temperature).perm hperm
  · intro hrepeated
    constructor
    · intro words hwords
      exact toOption_eq_none_iff.mp ((hwords.orderFree lib config).repeated hrepeated)
    · intro debug chaos temperature
      apply toOption_eq_none_iff.mp
      exact (Chaos.orderFree_apply lib config debug chaos temperature).repeated hrepeated

end EvilResp
