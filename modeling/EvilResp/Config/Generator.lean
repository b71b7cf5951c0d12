import EvilResp.Config.Options

/-!
# Generator settings

The profile of generated frames: protocol, corpus and whether malformed values
are allowed.

Main results:

- Theorem {lit}`GeneratorConfig.quiet_updated`: no update raises a multi-line error.
-/

namespace EvilResp

open Library

/-- The version of the protocol that generated frames follow. -/
inductive Protocol where
  | resp2
  | resp3
deriving DecidableEq

/-- Where generated values come from. -/
inductive Corpus where
  | boundary
  | random
deriving DecidableEq

/-- The settings of the generator. -/
structure GeneratorConfig where
  protocol : Protocol := .resp2
  corpus : Corpus := .boundary
  violations : Bool := false
deriving DecidableEq

namespace GeneratorConfig

/-- One option of the generator and the slot it fills. -/
def applyOption (config : GeneratorConfig) (option value : String) :
    AppResult (GeneratorConfig × Nat) :=
  match toAsciiUppercase option with
  | "PROTOCOL" =>
      match toAsciiUppercase value with
      | "RESP2" => .ok ({ config with protocol := .resp2 }, 0)
      | "RESP3" => .ok ({ config with protocol := .resp3 }, 0)
      | _ => .error (invalid "GENERATOR PROTOCOL requires RESP2 or RESP3")
  | "CORPUS" =>
      match toAsciiUppercase value with
      | "BOUNDARY" => .ok ({ config with corpus := .boundary }, 1)
      | "RANDOM" => .ok ({ config with corpus := .random }, 1)
      | _ => .error (invalid "GENERATOR CORPUS requires BOUNDARY or RANDOM")
  | "VIOLATIONS" =>
      match toAsciiUppercase value with
      | "ON" => .ok ({ config with violations := true }, 2)
      | "OFF" => .ok ({ config with violations := false }, 2)
      | _ => .error (invalid "GENERATOR VIOLATIONS requires ON or OFF")
  | _ => .error (invalid "GENERATOR accepts PROTOCOL, CORPUS, and VIOLATIONS")

/-- The settings after a generator command: pairs of options, each at most once. -/
def updated (config : GeneratorConfig) (argv : List String) : AppResult GeneratorConfig :=
  let (options, remainder) := asChunks2 argv
  if options = [] ∨ remainder ≠ [] then
    .error (invalid "GENERATOR requires option/value pairs")
  else applyOptions applyOption (invalid "duplicate GENERATOR option") options [] config

/-- The settings, as {lit}`DEBUG EVIL STATUS` shows them. -/
def status (config : GeneratorConfig) : String :=
  let protocol :=
    match config.protocol with
    | .resp2 => "RESP2"
    | .resp3 => "RESP3"
  let corpus :=
    match config.corpus with
    | .boundary => "BOUNDARY"
    | .random => "RANDOM"
  let violations := if config.violations then "ON" else "OFF"
  s!"generator_protocol={protocol} generator_corpus={corpus} generator_violations={violations}"

/-- An option with a bad value is refused on one line. -/
theorem quiet_applyOption (config : GeneratorConfig) (option value : String) :
    Quiet (config.applyOption option value) := by
  unfold applyOption
  split
  · split
    · exact quiet_ok
    · exact quiet_ok
    · exact quiet_invalid (singleLine_ofList rfl)
  · split
    · exact quiet_ok
    · exact quiet_ok
    · exact quiet_invalid (singleLine_ofList rfl)
  · split
    · exact quiet_ok
    · exact quiet_ok
    · exact quiet_invalid (singleLine_ofList rfl)
  · exact quiet_invalid (singleLine_ofList rfl)

/-- No update of the generator raises a multi-line error. -/
theorem quiet_updated (config : GeneratorConfig) (argv : List String) :
    Quiet (config.updated argv) := by
  unfold updated
  apply quiet_ite
  · exact quiet_invalid (singleLine_ofList rfl)
  · apply quiet_applyOptions quiet_applyOption
    exact singleLine_invalid.mpr (singleLine_ofList rfl)

end GeneratorConfig

end EvilResp
