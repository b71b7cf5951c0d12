import EvilResp.Config.Options

/-!
# Transport settings

Delivery faults: truncation, extra replies, chunk boundaries and connection
faults, with one probability for all of them.

Main results:

- Theorem {lit}`TransportConfig.quiet_updated`: no transport command raises a
  multi-line error.
-/

namespace EvilResp

open Library

/-! ## Connection faults -/

/-- What a connection fault does to the client's connection. -/
inductive FaultAction where
  | off
  | close
  | reset
  | stall
deriving DecidableEq

/-- Where in a delivery the fault happens; {lit}`bytes` counts the bytes before it. -/
inductive FaultPoint where
  | before
  | after
  | reply
  | random
  | bytes (n : Nat)
deriving DecidableEq

/-- The settings of connection faults. -/
structure FaultConfig where
  action : FaultAction := .off
  point : FaultPoint := .after
  durationMs : Nat := 10000
deriving DecidableEq

namespace FaultConfig

/-- An offset or a duration is an unsigned decimal number. -/
def decimal (value : String) : AppResult Nat :=
  parseDigitsOnly "fault offsets/durations must be unsigned decimal integers"
    "fault offset/duration is too large" value

/-- Read the action, in any letter case. -/
def setAction (config : FaultConfig) (value : String) : AppResult FaultConfig :=
  match toAsciiUppercase value with
  | "OFF" => .ok { config with action := .off }
  | "CLOSE" => .ok { config with action := .close }
  | "RESET" => .ok { config with action := .reset }
  | "STALL" => .ok { config with action := .stall }
  | _ => .error (invalid "FAULT expects OFF|CLOSE|RESET|STALL")

/-- An offset of 64 bits always fits a size of 64 bits. -/
def setPoint (config : FaultConfig) (value : String) : AppResult FaultConfig :=
  match toAsciiUppercase value with
  | "BEFORE" => .ok { config with point := .before }
  | "AFTER" => .ok { config with point := .after }
  | "REPLY" => .ok { config with point := .reply }
  | "RANDOM" => .ok { config with point := .random }
  | _ => (decimal value).map fun n => { config with point := .bytes n }

/-- Read how long a stall lasts, from a millisecond to an hour. -/
def setDuration (config : FaultConfig) (value : String) : AppResult FaultConfig := do
  let ms ← decimal value
  if 1 ≤ ms ∧ ms ≤ 3600000 then .ok { config with durationMs := ms }
  else .error (invalid "DURATION expects 1..3600000 milliseconds")

/-- The fault settings, as {lit}`DEBUG EVIL STATUS` shows them. -/
def status (config : FaultConfig) : String :=
  let action :=
    match config.action with
    | .off => "OFF"
    | .close => "CLOSE"
    | .reset => "RESET"
    | .stall => "STALL"
  let point :=
    match config.point with
    | .before => "BEFORE"
    | .after => "AFTER"
    | .reply => "REPLY"
    | .random => "RANDOM"
    | .bytes n => toString n
  s!"transport_fault={action} transport_at={point} transport_duration={config.durationMs}"

/-- A number that is refused is refused on one line. -/
theorem quiet_decimal (value : String) : Quiet (decimal value) :=
  quiet_parseDigitsOnly (singleLine_ofList rfl) (singleLine_ofList rfl) value

/-- An unknown action is refused on one line. -/
theorem quiet_setAction (config : FaultConfig) (value : String) :
    Quiet (config.setAction value) := by
  unfold setAction
  split
  case h_5 => exact quiet_invalid (singleLine_ofList rfl)
  all_goals exact quiet_ok

/-- A point that is neither a name nor a number is refused on one line. -/
theorem quiet_setPoint (config : FaultConfig) (value : String) :
    Quiet (config.setPoint value) := by
  unfold setPoint
  split
  case h_5 => exact quiet_map.mpr (quiet_decimal value)
  all_goals exact quiet_ok

/-- A duration out of range is refused on one line. -/
theorem quiet_setDuration (config : FaultConfig) (value : String) :
    Quiet (config.setDuration value) := by
  refine quiet_bind (quiet_decimal value) fun ms _ => ?_
  apply quiet_ite quiet_ok
  exact quiet_invalid (singleLine_ofList rfl)

end FaultConfig

/-! ## Delivery settings -/

/-- Where a delivery is truncated. -/
inductive Cut where
  | off
  | random
  | at (n : Nat)
deriving DecidableEq

/-- Where a delivery is split into chunks. -/
inductive Chunks where
  | off
  | random
  | at (offsets : List Nat)
deriving DecidableEq

/-- At most so many chunk boundaries are listed. -/
def maxBoundaries : Nat := 64

/-- The settings of all delivery faults. -/
structure TransportConfig where
  truncate : Cut := .off
  extra : Nat := 0
  chunks : Chunks := .off
  probability : F64 := .hundred
  fault : FaultConfig := {}
deriving DecidableEq

namespace TransportConfig

/-- Some delivery fault is switched on. -/
def enabled (config : TransportConfig) : Bool :=
  config.fault.action ≠ .off ∨ config.truncate ≠ .off ∨ config.extra ≠ 0 ∨ config.chunks ≠ .off

/-- Only clients on TCP can be reset. -/
def requiresTcp (config : TransportConfig) : Bool :=
  config.fault.action = .reset

/-- A position or a count is an unsigned decimal number. -/
def offset (value : String) : AppResult Nat :=
  parseDigitsOnly "transport offsets/counts must be unsigned decimal integers"
    "transport offset/count is too large" value

/-- The error for chunk boundaries that are not in order, or too many. -/
def invalidChunks : AppError :=
  invalid "CHUNKS requires at most 64 strictly increasing positive offsets"

/-- Collect chunk offsets.  The ones collected so far are listed last first. -/
def parseOffsets : List (List Char) → List Nat → AppResult (List Nat)
  | [], collected => .ok collected.reverse
  | part :: parts, collected => do
      let next ← offset (String.ofList part)
      if collected.length = maxBoundaries ∨ next = 0 ∨
          collected.head?.any fun last => last ≥ next then
        .error invalidChunks
      else parseOffsets parts (next :: collected)

/-- Read where to truncate. -/
def parseCut (value : String) : AppResult Cut :=
  match toAsciiUppercase value with
  | "OFF" => .ok .off
  | "RANDOM" => .ok .random
  | _ => (offset value).map .at

/-- Read how many replies are added, at most 16. -/
def parseExtra (value : String) : AppResult Nat := do
  let extra ← offset value
  if extra > 16 then .error (invalid "TRANSPORT EXTRA requires 0..16") else .ok extra

/-- Read where to split. -/
def parseChunks (value : String) : AppResult Chunks :=
  match toAsciiUppercase value with
  | "OFF" => .ok .off
  | "RANDOM" => .ok .random
  | _ => (parseOffsets (value.toList.splitOn ',') []).map .at

/-- One option of the transport and the slot it fills. -/
def applyOption (config : TransportConfig) (option value : String) :
    AppResult (TransportConfig × Nat) :=
  match toAsciiUppercase option with
  | "TRUNCATE" => do
      let truncate ← parseCut value
      .ok ({ config with truncate }, 0)
  | "EXTRA" => do
      let extra ← parseExtra value
      .ok ({ config with extra }, 1)
  | "CHUNKS" => do
      let chunks ← parseChunks value
      .ok ({ config with chunks }, 2)
  | "PROBABILITY" => do
      let probability ← parseProbability value
      .ok ({ config with probability }, 3)
  | "FAULT" => do
      let fault ← config.fault.setAction value
      .ok ({ config with fault }, 4)
  | "AT" => do
      let fault ← config.fault.setPoint value
      .ok ({ config with fault }, 5)
  | "DURATION" => do
      let fault ← config.fault.setDuration value
      .ok ({ config with fault }, 6)
  | _ =>
      .error (invalid
        "TRANSPORT accepts TRUNCATE, EXTRA, CHUNKS, PROBABILITY, FAULT, AT, and DURATION")

/-- The settings after a transport command. Options come in pairs, each at most once, and a fault
cannot be combined with a truncation. -/
def updated (config : TransportConfig) (argv : List String) : AppResult TransportConfig := do
  if argv.length = 1 ∧ argv.head?.any (eqIgnoreAsciiCase · "OFF") then .ok {}
  else
    let (pairs, tail) := asChunks2 argv
    if pairs = [] ∨ tail ≠ [] then
      .error (invalid "TRANSPORT requires OFF or option/value pairs")
    else
      let config ← applyOptions applyOption (invalid "duplicate TRANSPORT option") pairs [] config
      if config.fault.action ≠ .off ∧ config.truncate ≠ .off then
        .error (invalid
          "FAULT and TRUNCATE cannot both be enabled; use AT for the fault offset")
      else .ok config

/-- The transport settings, as {lit}`DEBUG EVIL STATUS` shows them. -/
def status (config : TransportConfig) : String :=
  let cut :=
    match config.truncate with
    | .off => "OFF"
    | .random => "RANDOM"
    | .at n => toString n
  let chunks :=
    match config.chunks with
    | .off => "OFF"
    | .random => "RANDOM"
    | .at offsets => String.intercalate "," (offsets.map toString)
  let enabled := if config.enabled then "ON" else "OFF"
  let probability := config.probability.displayFixed 2
  s!"transport={enabled} transport_probability={probability} transport_truncate={cut} transport_extra={config.extra} transport_chunks={chunks} {config.fault.status}"

/-- A position that is refused is refused on one line. -/
theorem quiet_offset (value : String) : Quiet (offset value) :=
  quiet_parseDigitsOnly (singleLine_ofList rfl) (singleLine_ofList rfl) value

/-- Whatever was collected so far, boundaries are refused on one line. -/
theorem quiet_parseOffsets (parts : List (List Char)) :
    ∀ collected : List Nat, Quiet (parseOffsets parts collected) := by
  induction parts with
  | nil =>
      intro collected
      exact quiet_ok
  | cons part parts ih =>
      intro collected
      refine quiet_bind (quiet_offset _) fun next _ => ?_
      apply quiet_ite _ (ih _)
      exact quiet_invalid (singleLine_ofList rfl)

/-- A bad truncation is refused on one line. -/
theorem quiet_parseCut (value : String) : Quiet (parseCut value) := by
  unfold parseCut
  split
  case h_3 => exact quiet_map.mpr (quiet_offset value)
  all_goals exact quiet_ok

/-- A bad number of replies is refused on one line. -/
theorem quiet_parseExtra (value : String) : Quiet (parseExtra value) := by
  refine quiet_bind (quiet_offset value) fun extra _ => ?_
  apply quiet_ite _ quiet_ok
  exact quiet_invalid (singleLine_ofList rfl)

/-- Bad boundaries are refused on one line. -/
theorem quiet_parseChunks (value : String) : Quiet (parseChunks value) := by
  unfold parseChunks
  split
  case h_3 => exact quiet_map.mpr (quiet_parseOffsets _ _)
  all_goals exact quiet_ok

/-- Each option refuses its value on one line. -/
theorem quiet_applyOption (config : TransportConfig) (option value : String) :
    Quiet (config.applyOption option value) := by
  unfold applyOption
  split
  · exact quiet_bind (quiet_parseCut value) fun _ _ => quiet_ok
  · exact quiet_bind (quiet_parseExtra value) fun _ _ => quiet_ok
  · exact quiet_bind (quiet_parseChunks value) fun _ _ => quiet_ok
  · exact quiet_bind (quiet_parseProbability value) fun _ _ => quiet_ok
  · exact quiet_bind (config.fault.quiet_setAction value) fun _ _ => quiet_ok
  · exact quiet_bind (config.fault.quiet_setPoint value) fun _ _ => quiet_ok
  · exact quiet_bind (config.fault.quiet_setDuration value) fun _ _ => quiet_ok
  · exact quiet_invalid (singleLine_ofList rfl)

/-- No transport command raises a multi-line error. -/
theorem quiet_updated (config : TransportConfig) (argv : List String) :
    Quiet (config.updated argv) := by
  unfold updated
  apply quiet_ite quiet_ok
  apply quiet_ite
  · exact quiet_invalid (singleLine_ofList rfl)
  · refine quiet_bind ?_ fun config _ => ?_
    · apply quiet_applyOptions quiet_applyOption
      exact singleLine_invalid.mpr (singleLine_ofList rfl)
    · apply quiet_ite _ quiet_ok
      exact quiet_invalid (singleLine_ofList rfl)

end TransportConfig

end EvilResp
