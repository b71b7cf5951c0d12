import EvilResp.Config.Order
import EvilResp.Library.Decimal

/-!
# The preset forgets manual settings

A preset sets every field of a configuration except the filters, the canonicalization and the
protocol of the generator.  It goes through the parsers of the single commands, and these accept
every value that it prints for them.  Therefore two configurations that agree on what is kept
become one configuration, whatever was configured before.

Main results:

- Theorem {lit}`Chaos.exists_expand`: every temperature of the range is expanded.
- Theorem {lit}`Chaos.exists_apply`: configurations with one context become equal.
- Theorem {lit}`Chaos.expand_zero`: what the temperature zero leaves of a configuration.
-/

namespace EvilResp

open Library

/-- Two configurations agree on what a preset keeps. -/
structure SameContext (config other : EvilConfig) : Prop where
  included : config.included = other.included
  excluded : config.excluded = other.excluded
  canonicalization : config.canonicalization = other.canonicalization
  protocol : config.generator.protocol = other.generator.protocol
  seed : config.seed = other.seed

namespace Chaos

/-! ## Arguments -/

/-- An option of the preset with a value that is read. -/
inductive ValidOption (lib : Externals) : String × String → Prop where
  | seed {key value : String} {n : Nat} (hkey : toAsciiUppercase key = "SEED")
      (hvalue : parseUnsigned 64 value = .ok n) : ValidOption lib (key, value)
  | hash {key value : String} {hash : ProtocolHash} (hkey : toAsciiUppercase key = "HASH")
      (hvalue : ProtocolHash.fromStr lib value = .ok hash) : ValidOption lib (key, value)

/-- The words of the preset command, a temperature of the range, and valid options, each given
once. -/
inductive ValidArguments (lib : Externals) : List String → F64 → Prop where
  | words {debug chaos text : String} {temperature : F64} {pairs : List (String × String)}
      (hdebug : eqIgnoreAsciiCase debug "DEBUG" = true)
      (hchaos : eqIgnoreAsciiCase chaos "CHAOS" = true)
      (htemperature : F64.parse text = .ok temperature)
      (hrange : F64.inRange .zero .hundred temperature = true)
      (hoptions : ∀ pair ∈ pairs, ValidOption lib pair) (honce : ¬ RepeatsName pairs) :
      ValidArguments lib (debug :: chaos :: text :: optionWords pairs) temperature

variable {lib : Externals} {config other : EvilConfig}

theorem ValidOption.exists_read {pair : String × String} (h : ValidOption lib pair) :
    ∃ filled, readOption (applyOption lib) (0, .blake3) pair = some filled := by
  cases h with
  | seed hkey hvalue =>
      simp only [readOption, applyOption, hkey, hvalue]
      exact ⟨_, rfl⟩
  | hash hkey hvalue =>
      simp only [readOption, applyOption, hkey, hvalue]
      exact ⟨_, rfl⟩

/-- The slot of an option tells its name. -/
theorem name_of_slot {pair : String × String} {filled : (UInt64 × ProtocolHash) × Nat}
    (h : readOption (applyOption lib) (0, .blake3) pair = some filled) :
    toAsciiUppercase pair.1 = if filled.2 = 0 then "SEED" else "HASH" := by
  unfold readOption applyOption at h
  split at h
  · rename_i hkey
    split at h
    · obtain rfl := Option.some.inj h
      exact hkey
    · cases h
  · rename_i hkey
    rw [slot_of_bind h]
    exact hkey
  · cases h

/-- The loop over valid options accepts them. -/
theorem exists_applyOptions {pairs : List (String × String)}
    (hoptions : ∀ pair ∈ pairs, ValidOption lib pair) (honce : ¬ RepeatsName pairs)
    (duplicate : AppError) (start : UInt64 × ProtocolHash) :
    ∃ settings, applyOptions (applyOption lib) duplicate pairs [] start = .ok settings := by
  have hnames : (pairs.map fun pair => toAsciiUppercase pair.1).Nodup :=
    not_not.mp fun hrepeated => honce (repeatsName_iff.mpr hrepeated)
  have hfill : ∃ settings, fillOptions (applyOption lib) (0, .blake3) copySlot pairs [] start =
      some settings := by
    refine fill_accepts ?_ (fun pair hpair => (hoptions pair hpair).exists_read) hnames start
    intro pair other filled filled' hfilled hfilled' hslot
    rw [name_of_slot hfilled, name_of_slot hfilled', hslot]
  obtain ⟨settings, hsettings⟩ := hfill
  rw [← (slotWise_applyOption lib).toOption_applyOptions duplicate] at hsettings
  exact ⟨settings, toOption_eq_some_iff.mp hsettings⟩

/-! ## Printed probabilities -/

/-- What the preset prints for another parser is a probability. -/
theorem parseProbability_display {magnitude : ℚ} (hle : magnitude ≤ 100) :
    ∃ probability, parseProbability (F64.display (.finite false magnitude)) = .ok probability := by
  obtain ⟨value, hvalue, hrange⟩ := F64.parse_display hle
  refine ⟨.finite false value, ?_⟩
  rw [parseProbability, hvalue]
  exact if_pos (F64.inRange_finite.mpr hrange)

theorem above_finite (threshold : ℚ) (negative : Bool) (magnitude : ℚ) :
    above threshold (.finite negative magnitude) =
      decide (threshold < F64.signed negative magnitude) := by
  simp [above, F64.lt, F64.rank_ofRat, F64.rank_finite]

/-- What a temperature is above a threshold by, scaled. -/
theorem exists_scaled {negative : Bool} {magnitude threshold factor : ℚ}
    (habove : above threshold (.finite negative magnitude) = true)
    (hle : F64.signed negative magnitude ≤ 100) (hfactor : 0 ≤ factor)
    (hscale : (100 - threshold) * factor ≤ 100) :
    ∃ probability, parseProbability
      (((F64.finite negative magnitude).subRat threshold).mulRat factor).display =
        .ok probability := by
  have hlt : threshold < F64.signed negative magnitude := by
    simpa [above_finite] using habove
  rw [F64.subRat, F64.ofRat_of_nonneg (sub_nonneg.mpr hlt.le), F64.mulRat]
  apply parseProbability_display
  calc (F64.signed negative magnitude - threshold) * factor
      ≤ (100 - threshold) * factor := by gcongr
    _ ≤ 100 := hscale

/-! ## Expansion -/

theorem upper_probability : toAsciiUppercase "PROBABILITY" = "PROBABILITY" :=
  rfl

theorem parse_execRandom {text : String} {probability : F64}
    (h : parseProbability text = .ok probability) :
    ExecConfig.parse ["RANDOM", "PROBABILITY", text] = .ok { action := .random, probability } := by
  have haction : ExecConfig.parseAction "RANDOM" = .ok .random := rfl
  simp [ExecConfig.parse, haction, h, eqIgnoreAsciiCase]

theorem parse_framingLength {text : String} {probability : F64}
    (h : parseProbability text = .ok probability) :
    FramingConfig.parse
        ["LENGTH", "PROBABILITY", text, "TARGET", "ANY", "KIND", "RANDOM"] =
      .ok (.length { probability }) := by
  have hupper : toAsciiUppercase "LENGTH" = "LENGTH" := rfl
  have hpairs : asChunks2 ["PROBABILITY", text, "TARGET", "ANY", "KIND", "RANDOM"] =
      ([("PROBABILITY", text), ("TARGET", "ANY"), ("KIND", "RANDOM")], []) := rfl
  have hprobability (config : LengthConfig) : config.applyOption "PROBABILITY" text =
      .ok ({ config with probability }, 0) := by
    simp [LengthConfig.applyOption, upper_probability, h]
  have htarget (config : LengthConfig) : config.applyOption "TARGET" "ANY" =
      .ok ({ config with target := .any }, 1) := rfl
  have hkind (config : LengthConfig) : config.applyOption "KIND" "RANDOM" =
      .ok ({ config with kind := none }, 2) := rfl
  simp [FramingConfig.parse, hupper, FramingConfig.parseLength, hpairs, applyOptions, hprobability,
    htarget, hkind]

theorem updated_transportRandom {text : String} {probability : F64}
    (h : parseProbability text = .ok probability) :
    ({} : TransportConfig).updated
        ["TRUNCATE", "RANDOM", "CHUNKS", "RANDOM", "PROBABILITY", text] =
      .ok { truncate := .random, chunks := .random, probability } := by
  have hpairs : asChunks2 ["TRUNCATE", "RANDOM", "CHUNKS", "RANDOM", "PROBABILITY", text] =
      ([("TRUNCATE", "RANDOM"), ("CHUNKS", "RANDOM"), ("PROBABILITY", text)], []) := rfl
  have htruncate (config : TransportConfig) : config.applyOption "TRUNCATE" "RANDOM" =
      .ok ({ config with truncate := .random }, 0) := rfl
  have hchunks (config : TransportConfig) : config.applyOption "CHUNKS" "RANDOM" =
      .ok ({ config with chunks := .random }, 2) := rfl
  have hprobability (config : TransportConfig) : config.applyOption "PROBABILITY" text =
      .ok ({ config with probability }, 3) := by
    simp [TransportConfig.applyOption, upper_probability, h]
  simp [TransportConfig.updated, hpairs, applyOptions, htruncate, hchunks, hprobability]

theorem exists_expandExec {temperature : F64}
    (hrange : F64.inRange .zero .hundred temperature = true) :
    ∃ exec, expandExec temperature = .ok exec := by
  obtain ⟨negative, magnitude, rfl, -, hle⟩ := F64.le_hundred_finite hrange
  unfold expandExec
  split
  · rename_i habove
    obtain ⟨probability, hprobability⟩ :=
      exists_scaled habove hle (by norm_num : (0 : ℚ) ≤ 3⁻¹) (by norm_num)
    exact ⟨_, parse_execRandom hprobability⟩
  · exact ⟨{}, rfl⟩

theorem exists_expandFraming {temperature : F64}
    (hrange : F64.inRange .zero .hundred temperature = true) :
    ∃ framing, expandFraming temperature = .ok framing := by
  obtain ⟨negative, magnitude, rfl, -, hle⟩ := F64.le_hundred_finite hrange
  unfold expandFraming
  split
  · rename_i habove
    obtain ⟨probability, hprobability⟩ :=
      exists_scaled habove hle (by norm_num : (0 : ℚ) ≤ 2) (by norm_num)
    exact ⟨_, parse_framingLength hprobability⟩
  · exact ⟨.off, rfl⟩

theorem exists_expandTransport {temperature : F64}
    (hrange : F64.inRange .zero .hundred temperature = true) :
    ∃ transport, expandTransport temperature = .ok transport := by
  obtain ⟨negative, magnitude, rfl, -, hle⟩ := F64.le_hundred_finite hrange
  unfold expandTransport
  split
  · rename_i habove
    obtain ⟨probability, hprobability⟩ :=
      exists_scaled habove hle (by norm_num : (0 : ℚ) ≤ 1) (by norm_num)
    rw [F64.mulRat_one] at hprobability
    exact ⟨_, updated_transportRandom hprobability⟩
  · exact ⟨{}, rfl⟩

/-- The generator keeps its protocol only. -/
theorem updated_generator (config : GeneratorConfig) (violations : Bool) :
    config.updated ["CORPUS", "BOUNDARY", "VIOLATIONS", if violations then "ON" else "OFF"] =
      .ok { protocol := config.protocol, corpus := .boundary, violations } := by
  cases violations <;> rfl

/-- Every temperature of the range is expanded. -/
theorem exists_expand (config : EvilConfig) {temperature : F64}
    (hrange : F64.inRange .zero .hundred temperature = true) (seed : UInt64) :
    ∃ next, expand config temperature seed = .ok next := by
  obtain ⟨exec, hexec⟩ := exists_expandExec hrange
  obtain ⟨framing, hframing⟩ := exists_expandFraming hrange
  obtain ⟨transport, htransport⟩ := exists_expandTransport hrange
  rw [expand, updated_generator, ok_bind, hexec, ok_bind, hframing, ok_bind, htransport, ok_bind]
  exact ⟨_, rfl⟩

/-- An expansion reads what is kept, and nothing else. -/
theorem expand_sameContext (h : SameContext config other) (temperature : F64) (seed : UInt64) :
    expand config temperature seed = expand other temperature seed := by
  rw [expand, expand, updated_generator, updated_generator, h.included, h.excluded,
    h.canonicalization, h.protocol]

/-- Configurations with one context become equal, and both presets are accepted. -/
theorem exists_apply {argv : List String} {temperature : F64}
    (hargv : ValidArguments lib argv temperature) (h : SameContext config other) :
    ∃ next hash seed, expand config temperature seed = .ok next ∧
      apply lib config argv = .ok (next, hash) ∧ apply lib other argv = .ok (next, hash) := by
  cases hargv with
  | @words debug chaos text temperature pairs hdebug hchaos htemperature hrange hoptions honce =>
      obtain ⟨settings, hsettings⟩ := exists_applyOptions hoptions honce
        (invalid "duplicate DEBUG CHAOS option") (config.seed, .blake3)
      obtain ⟨next, hnext⟩ := exists_expand config hrange settings.1
      have hparse : parseTemperature text = .ok temperature := by
        rw [parseTemperature, htemperature]
        exact if_pos hrange
      have happly : ∀ start : EvilConfig, SameContext config start →
          apply lib start (debug :: chaos :: text :: optionWords pairs) =
            .ok (next, settings.2) := by
        intro start hstart
        have hwords : ¬ ((!eqIgnoreAsciiCase debug "DEBUG") = true ∨
            (!eqIgnoreAsciiCase chaos "CHAOS") = true) := by
          simp [hdebug, hchaos]
        rw [apply, if_neg hwords, hparse, ok_bind, asChunks2_optionWords]
        simp only [ne_eq, not_true_eq_false, if_false]
        rw [← hstart.seed, hsettings, ok_bind, ← expand_sameContext hstart, hnext]
        rfl
      exact ⟨next, settings.2, settings.1, hnext, happly config ⟨rfl, rfl, rfl, rfl, rfl⟩,
        happly other h⟩

/-- What the temperature zero leaves of a configuration. -/
theorem expand_zero {temperature : F64} (hzero : temperature.eq .zero = true) {next : EvilConfig}
    {seed : UInt64} (h : expand config temperature seed = .ok next) :
    next.mode = .off ∧ next.framing = .off ∧ next.exec = {} ∧ next.transport = {} ∧
      next.topologyRedirect = none ∧ next.topologyProbability = .zero := by
  obtain ⟨negative, magnitude, rfl, hsigned⟩ := F64.eq_zero_iff.mp hzero
  have hbelow : ∀ threshold : ℚ, 0 ≤ threshold →
      above threshold (.finite negative magnitude) = false := by
    intro threshold hthreshold
    rw [above_finite, hsigned]
    exact decide_eq_false (not_lt.mpr hthreshold)
  have hprobability : ((F64.finite negative magnitude).subRat 50).maxZero.divRat 2 = .zero := by
    rw [F64.maxZero_subRat, hsigned, F64.divRat, F64.mulRat]
    norm_num [F64.zero]
  rw [expand, updated_generator, ok_bind, expandExec, expandFraming, expandTransport,
    hbelow 25 (by norm_num), hbelow 50 (by norm_num), hbelow 75 (by norm_num)] at h
  obtain rfl := Except.ok.inj h
  exact ⟨if_pos hzero, rfl, rfl, rfl, rfl, hprobability⟩

end Chaos

end EvilResp
