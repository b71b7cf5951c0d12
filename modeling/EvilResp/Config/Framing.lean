import EvilResp.Config.Options

/-!
# Framing settings

Which length headers may be corrupted: the automatic root fault, none, or one
header chosen by a path.

Main results:

- Theorem {lit}`FramingConfig.quiet_parse`: no framing command raises a multi-line
  error.
-/

namespace EvilResp

open Library

/-- The ways one advertised length is corrupted. -/
inductive LengthCorruption where
  | shorter
  | longer
  | negative
  | boundary
  | overflow
deriving DecidableEq

/-- Which length headers qualify. -/
inductive Target where
  | any
  | path (path : String)
deriving DecidableEq

/-- The settings of length faults. -/
structure LengthConfig where
  probability : F64 := .hundred
  target : Target := .any
  kind : Option LengthCorruption := none
deriving DecidableEq

/-- Whether lengths are faulted: by default, never, or as configured. -/
inductive FramingConfig where
  | auto
  | off
  | length (options : LengthConfig)
deriving DecidableEq

namespace Target

/-- Normalize the segments after the root.  A pair member may follow an index. -/
def parseSegments : List (List Char) → Bool → String → AppResult String
  | [], _, text => .ok text
  | part :: parts, afterIndex, text =>
      let part := toAsciiLowercase (String.ofList part)
      if afterIndex ∧ (part = "key" ∨ part = "value") then
        parseSegments parts false (text ++ "." ++ part)
      else if part ≠ "" ∧ part.toList.all Char.isDigit then
        match parseUnsigned 64 part with
        | .ok index => parseSegments parts true (text ++ "." ++ toString index)
        | .error _ => .error (invalid "frame path index is too large")
      else
        .error (invalid
          "invalid frame path: use root, numeric children, and .key/.value after a pair index")

/-- Read a target: any header, or the path of one frame. -/
def parse (value : String) : AppResult Target :=
  if eqIgnoreAsciiCase value "ANY" then .ok .any
  else
    match value.toList.splitOn '.' with
    | [] => .error (invalid "TARGET requires ANY or a root frame path")
    | root :: parts =>
        if !eqIgnoreAsciiCase (String.ofList root) "root" then
          .error (invalid "TARGET requires ANY or a root frame path")
        else (parseSegments parts false "root").map .path

/-- A target as the status shows it. -/
def asStr : Target → String
  | .any => "ANY"
  | .path text => text

/-- The frame at a path is a target. -/
def pathMatches (target : Target) (text : String) : Bool :=
  match target with
  | .any => true
  | .path wanted => wanted = text

/-- A path is refused on one line, wherever it goes wrong. -/
theorem quiet_parseSegments (parts : List (List Char)) :
    ∀ (afterIndex : Bool) (text : String), Quiet (parseSegments parts afterIndex text) := by
  induction parts with
  | nil =>
      intro afterIndex text
      exact quiet_ok
  | cons part parts ih =>
      intro afterIndex text
      unfold parseSegments
      apply quiet_ite (ih _ _)
      apply quiet_ite
      · split
        · exact ih _ _
        · exact quiet_invalid (singleLine_ofList rfl)
      · exact quiet_invalid (singleLine_ofList rfl)

/-- A target that is no path is refused on one line. -/
theorem quiet_parse (value : String) : Quiet (parse value) := by
  unfold parse
  apply quiet_ite quiet_ok
  split
  · exact quiet_invalid (singleLine_ofList rfl)
  · apply quiet_ite
    · exact quiet_invalid (singleLine_ofList rfl)
    · exact quiet_map.mpr (quiet_parseSegments _ _ _)

end Target

namespace LengthConfig

/-- Read the kind of a fault; {lit}`none` is a random one. -/
def parseKind (value : String) : AppResult (Option LengthCorruption) :=
  match toAsciiUppercase value with
  | "RANDOM" => .ok none
  | "SHORTER" => .ok (some .shorter)
  | "LONGER" => .ok (some .longer)
  | "NEGATIVE" => .ok (some .negative)
  | "BOUNDARY" => .ok (some .boundary)
  | "OVERFLOW" => .ok (some .overflow)
  | _ =>
      .error (invalid "KIND requires RANDOM, SHORTER, LONGER, NEGATIVE, BOUNDARY, or OVERFLOW")

/-- One option of a length fault and the slot it fills. -/
def applyOption (config : LengthConfig) (option value : String) :
    AppResult (LengthConfig × Nat) :=
  match toAsciiUppercase option with
  | "PROBABILITY" => do
      let probability ← parseProbability value
      .ok ({ config with probability }, 0)
  | "TARGET" => do
      let target ← Target.parse value
      .ok ({ config with target }, 1)
  | "KIND" => do
      let kind ← parseKind value
      .ok ({ config with kind }, 2)
  | _ => .error (invalid "FRAMING LENGTH accepts PROBABILITY, TARGET, and KIND")

/-- An unknown kind is refused on one line. -/
theorem quiet_parseKind (value : String) : Quiet (parseKind value) := by
  unfold parseKind
  split
  case h_7 => exact quiet_invalid (singleLine_ofList rfl)
  all_goals exact quiet_ok

/-- An option with a bad value is refused on one line. -/
theorem quiet_applyOption (config : LengthConfig) (option value : String) :
    Quiet (config.applyOption option value) := by
  unfold applyOption
  split
  · exact quiet_bind (quiet_parseProbability value) fun _ _ => quiet_ok
  · exact quiet_bind (Target.quiet_parse value) fun _ _ => quiet_ok
  · exact quiet_bind (quiet_parseKind value) fun _ _ => quiet_ok
  · exact quiet_invalid (singleLine_ofList rfl)

end LengthConfig

namespace FramingConfig

/-- Read the options of a length fault over the defaults. -/
def parseLength (argv : List String) : AppResult FramingConfig := do
  let (options, remainder) := asChunks2 argv
  if remainder ≠ [] then .error (invalid "FRAMING LENGTH options require a value")
  else
    let config ← applyOptions LengthConfig.applyOption (invalid "duplicate FRAMING LENGTH option")
      options [] {}
    .ok (.length config)

/-- Read the mode with its options; only length faults have some. -/
def parse : List String → AppResult FramingConfig
  | [] => .error (invalid "FRAMING requires AUTO, OFF, or LENGTH")
  | mode :: argv =>
      match toAsciiUppercase mode with
      | "AUTO" =>
          if argv ≠ [] then .error (invalid "FRAMING AUTO and OFF do not accept options")
          else .ok .auto
      | "OFF" =>
          if argv ≠ [] then .error (invalid "FRAMING AUTO and OFF do not accept options")
          else .ok .off
      | "LENGTH" => parseLength argv
      | _ => .error (invalid "FRAMING requires AUTO, OFF, or LENGTH")

/-- A kind as the status shows it. -/
def kindName : LengthCorruption → String
  | .shorter => "SHORTER"
  | .longer => "LONGER"
  | .negative => "NEGATIVE"
  | .boundary => "BOUNDARY"
  | .overflow => "OVERFLOW"

/-- The settings, as {lit}`DEBUG EVIL STATUS` shows them. -/
def status : FramingConfig → String
  | .auto => "framing=AUTO"
  | .off => "framing=OFF"
  | .length options =>
      let probability := options.probability.displayFixed 2
      let kind := (options.kind.map kindName).getD "RANDOM"
      s!"framing=LENGTH framing_probability={probability} framing_target={options.target.asStr} framing_kind={kind}"

/-- No framing command raises a multi-line error. -/
theorem quiet_parse (argv : List String) : Quiet (parse argv) := by
  unfold parse
  split
  · exact quiet_invalid (singleLine_ofList rfl)
  · split
    · apply quiet_ite _ quiet_ok
      exact quiet_invalid (singleLine_ofList rfl)
    · apply quiet_ite _ quiet_ok
      exact quiet_invalid (singleLine_ofList rfl)
    · apply quiet_ite
      · exact quiet_invalid (singleLine_ofList rfl)
      · refine quiet_bind ?_ fun _ _ => quiet_ok
        apply quiet_applyOptions LengthConfig.quiet_applyOption
        exact singleLine_invalid.mpr (singleLine_ofList rfl)
    · exact quiet_invalid (singleLine_ofList rfl)

end FramingConfig

end EvilResp
