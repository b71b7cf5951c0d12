import EvilResp.Config.Evil
import EvilResp.Config.Fingerprint

/-!
# The temperature preset

One number expands into ordinary settings.  The preset is staged as a whole, so a
failed expansion changes nothing, and it goes through the same parsers as the
single commands.

Main results:

- Theorem {lit}`Chaos.quiet_apply`: a rejected preset reports a single line.
-/

namespace EvilResp
namespace Chaos

open Library

/-- The usage of {lit}`DEBUG CHAOS`. -/
def usage : String :=
  "expected DEBUG CHAOS <0..100> [SEED <u64>] [HASH <BLAKE3|TLSH>]"

/-- Read a temperature from 0 to 100. -/
def parseTemperature (value : String) : AppResult F64 :=
  match F64.parse value with
  | .error _ => .error (invalid "temperature must be a finite number in 0..100")
  | .ok temperature =>
      if F64.inRange .zero .hundred temperature then .ok temperature
      else .error (invalid "temperature must be a finite number in 0..100")

/-- One option of the preset and the slot it fills. -/
def applyOption (lib : Externals) (settings : UInt64 × ProtocolHash) (key value : String) :
    AppResult ((UInt64 × ProtocolHash) × Nat) :=
  match toAsciiUppercase key with
  | "SEED" =>
      match parseUnsigned 64 value with
      | .ok seed => .ok ((UInt64.ofNat seed, settings.2), 0)
      | .error _ => .error (invalid "SEED requires an unsigned 64-bit integer")
  | "HASH" => do
      let hash ← ProtocolHash.fromStr lib value
      .ok ((settings.1, hash), 1)
  | _ => .error (invalid usage)

/-- Whether a temperature is above a threshold. -/
def above (threshold : ℚ) (temperature : F64) : Bool :=
  (F64.ofRat threshold).lt temperature

/-- Transaction edits for a temperature. -/
def expandExec (temperature : F64) : AppResult ExecConfig :=
  if above 25 temperature then
    ExecConfig.parse ["RANDOM", "PROBABILITY", ((temperature.subRat 25).divRat 3).display]
  else .ok {}

/-- Length faults for a temperature. -/
def expandFraming (temperature : F64) : AppResult FramingConfig :=
  if above 50 temperature then
    FramingConfig.parse
      ["LENGTH", "PROBABILITY", ((temperature.subRat 50).mulRat 2).display, "TARGET", "ANY",
        "KIND", "RANDOM"]
  else .ok .off

/-- Delivery faults for a temperature. -/
def expandTransport (temperature : F64) : AppResult TransportConfig :=
  if above 75 temperature then
    ({} : TransportConfig).updated
      ["TRUNCATE", "RANDOM", "CHUNKS", "RANDOM", "PROBABILITY", (temperature.subRat 75).display]
  else .ok {}

/-- The settings a temperature stands for.  Filters, canonicalization and the
generator's protocol are kept. -/
def expand (config : EvilConfig) (temperature : F64) (seed : UInt64) : AppResult EvilConfig := do
  let generator ←
    config.generator.updated
      ["CORPUS", "BOUNDARY", "VIOLATIONS", if above 75 temperature then "ON" else "OFF"]
  let exec ← expandExec temperature
  let framing ← expandFraming temperature
  let transport ← expandTransport temperature
  .ok { config with
    seed
    mode := if temperature.eq .zero then .off else .mutate
    probability := temperature
    strategy := if above 50 temperature then .replace else .preserve
    mutationCount := if above 25 temperature then .many else .one
    depth := .inner
    framing
    exec
    transport
    topologyRedirect := none
    topologyProbability := (temperature.subRat 50).maxZero.divRat 2
    generator }

/-- Run one {lit}`DEBUG CHAOS` command.  Returns the new configuration and the hash
to report. -/
def apply (lib : Externals) (config : EvilConfig) :
    List String → AppResult (EvilConfig × ProtocolHash)
  | debug :: chaos :: temperature :: args => do
      if !eqIgnoreAsciiCase debug "DEBUG" ∨ !eqIgnoreAsciiCase chaos "CHAOS" then
        .error (invalid usage)
      else
        let temperature ← parseTemperature temperature
        let (options, remainder) := asChunks2 args
        if remainder ≠ [] then .error (invalid usage)
        else
          let (seed, hash) ←
            applyOptions (applyOption lib) (invalid "duplicate DEBUG CHAOS option") options []
              (config.seed, .blake3)
          let next ← expand config temperature seed
          .ok (next, hash)
  | _ => .error (invalid usage)

/-! ## Errors -/

variable {lib : Externals}

/-- A bad temperature is refused on one line. -/
theorem quiet_parseTemperature (value : String) : Quiet (parseTemperature value) := by
  unfold parseTemperature
  split
  · exact quiet_invalid (singleLine_ofList rfl)
  · apply quiet_ite quiet_ok
    exact quiet_invalid (singleLine_ofList rfl)

/-- A bad option is refused on one line. -/
theorem quiet_applyOption (settings : UInt64 × ProtocolHash) (key value : String) :
    Quiet (applyOption lib settings key value) := by
  unfold applyOption
  split
  · split
    · exact quiet_ok
    · exact quiet_invalid (singleLine_ofList rfl)
  · exact quiet_bind (quiet_hashFromStr value) fun _ _ => quiet_ok
  · exact quiet_invalid (singleLine_ofList rfl)

/-- No temperature leads to settings that are refused over several lines. -/
theorem quiet_expand (config : EvilConfig) (temperature : F64) (seed : UInt64) :
    Quiet (expand config temperature seed) := by
  refine quiet_bind (config.generator.quiet_updated _) fun _ _ => ?_
  refine quiet_bind (quiet_ite (ExecConfig.quiet_parse _) quiet_ok) fun _ _ => ?_
  refine quiet_bind (quiet_ite (FramingConfig.quiet_parse _) quiet_ok) fun _ _ => ?_
  exact quiet_bind (quiet_ite (TransportConfig.quiet_updated _ _) quiet_ok) fun _ _ => quiet_ok

/-- A rejected preset reports a single line. -/
theorem quiet_apply (config : EvilConfig) (argv : List String) : Quiet (apply lib config argv) := by
  have husage {α : Type} : Quiet (.error (invalid usage) : AppResult α) :=
    quiet_invalid (singleLine_ofList rfl)
  unfold apply
  split
  case h_2 => exact husage
  apply quiet_ite husage
  refine quiet_bind (quiet_parseTemperature _) fun temperature _ => ?_
  apply quiet_ite husage
  refine quiet_bind ?_ fun settings _ => ?_
  · apply quiet_applyOptions quiet_applyOption
    exact singleLine_invalid.mpr (singleLine_ofList rfl)
  · exact quiet_bind (quiet_expand config temperature settings.1) fun _ _ => quiet_ok

end Chaos
end EvilResp
