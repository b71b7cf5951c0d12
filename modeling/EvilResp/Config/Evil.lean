import EvilResp.Config.Exec
import EvilResp.Config.Filters
import EvilResp.Config.Framing
import EvilResp.Config.Generator
import EvilResp.Config.Topology
import EvilResp.Config.Transport
import EvilResp.Resp.Frame

/-!
# The configuration of a connection

All settings of one connection and the command that changes them.  A command
builds the new configuration and commits it only when every option was accepted.

Main results:

- Theorem {lit}`EvilConfig.applyDebugCommand_error`: a rejected command reports a
  single line, or repeats client text in one of two places.
-/

namespace EvilResp

open Library
open EvilResp.Resp

/-- The lines that {lit}`DEBUG EVIL HELP` answers. -/
def debugEvilHelp : List String :=
  [
    "DEBUG EVIL <subcommand> [<arg> ...]. Subcommands are:",
    "CANONICALIZE <ALL|UNORDERED|NONE>",
    "    Normalize upstream replies before mutation (default UNORDERED).",
    "DEPTH <ANY|INNER>",
    "    Weight value and length targets uniformly or toward nested frames (default INNER).",
    "    INNER doubles a frame's weight per nesting level so outer shells usually survive.",
    "EXCLUDE [<command|regex|@attribute> ...]",
    "    Replace exclusion filters; no arguments clears the list.",
    "    Filters are case-insensitive; exclusions override inclusions.",
    "EXEC <OFF|RANDOM|REMOVE|DUPLICATE|SWAP> [PROBABILITY <0..100>]",
    "    Make one correctly framed outer EXEC array edit in MUTATE/OVERFLOW.",
    "    Selected edits replace generic value/framing mutation; transport still applies.",
    "    Probability defaults to 100, independently of value probability. OFF accepts no options.",
    "FRAMING <AUTO|OFF>",
    "    Use automatic root length faults or disable length faults.",
    "FRAMING LENGTH [PROBABILITY <0..100>] [TARGET <ANY|path>] [KIND <RANDOM|SHORTER|LONGER|NEGATIVE|BOUNDARY|OVERFLOW>]",
    "    Attempt one length fault in MUTATE/OVERFLOW, independent of value probability.",
    "    Omitted options reset to 100, ANY, RANDOM. Paths include root.0 and root.0.value.",
    "GENERATOR [PROTOCOL <RESP2|RESP3>] [CORPUS <BOUNDARY|RANDOM>] [VIOLATIONS <OFF|ON>]",
    "    Configure generated values; supply at least one option/value pair.",
    "    Omitted options retain their values. VIOLATIONS ON permits malformed values.",
    "HELP",
    "    Print this help.",
    "INCLUDE [<command|regex|@attribute> ...]",
    "    Replace inclusion filters; no arguments allows all commands unless excluded.",
    "MODE <OFF|RANDOM|MUTATE|OVERFLOW> [PROBABILITY <0..100>]",
    "    OFF disables RESP mutation; RANDOM generates replies without forwarding.",
    "    MUTATE changes upstream replies; OVERFLOW targets extreme values and lengths.",
    "    Probability defaults to 100 (0 for OFF); RANDOM ignores probability.",
    "    Independent topology and transport faults can still apply in OFF mode.",
    "MODE RESET",
    "    Disable RESP mutation, zero its probability, and reset the shared command index.",
    "    Invalidate older connections and reset this connection's protocol fingerprints.",
    "    Preserve seed and other settings, including topology and transport faults.",
    "MUTATIONS <ONE|MANY>",
    "    Select one eligible frame per reply or mutate multiple frames (default MANY).",
    "SEED <seed>",
    "    Set the deterministic seed to an unsigned 64-bit integer (default 0).",
    "STATUS",
    "    Return the current connection's configuration.",
    "STRATEGY <PRESERVE|REPLACE>",
    "    Preserve containers and scalar types or allow frame replacement (default PRESERVE).",
    "TOPOLOGY <0..100|OFF>",
    "    Configure legacy cluster redirection faults, or disable all topology faults.",
    "TOPOLOGY REDIRECT [PROBABILITY <0..100>] [KIND <MOVED|ASK|RANDOM>]",
    "    [TARGET <WRONG_NODE|SELF|REPLICA|NEXT|RANDOM|host:port>] [SLOT <CORRECT|WRONG|WILD|0..16383>]",
    "    [PHASE <BEFORE|AFTER>] [KEY <argument-index>] [UNTIL <command-index|OFF>]",
    "    Inject focused cluster redirects; omitted options reset to defaults.",
    "    Defaults: 100, MOVED, WRONG_NODE, CORRECT, BEFORE, KEY 1, UNTIL OFF.",
    "    BEFORE skips upstream execution; AFTER replaces the reply after execution.",
    "    KEY is zero-based; UNTIL is an exclusive shared command index cutoff.",
    "TRANSPORT OFF",
    "    Clear all transport faults and restore transport probability to 100.",
    "TRANSPORT [TRUNCATE <OFF|RANDOM|bytes>] [EXTRA <0..16>] [CHUNKS <OFF|RANDOM|offsets>]",
    "    [PROBABILITY <0..100>] [FAULT <OFF|CLOSE|RESET|STALL>]",
    "    [AT <BEFORE|AFTER|REPLY|RANDOM|bytes>] [DURATION <1..3600000>]",
    "    Configure delivery faults; supply at least one option/value pair.",
    "    Omitted options retain their values. Applies independently of RESP mode.",
    "    TRUNCATE sends a prefix then closes; EXTRA appends unsolicited replies.",
    "    CHUNKS uses comma-separated increasing positive byte offsets or random splits.",
    "    FAULT closes, resets TCP, or explicitly stalls, then ends the connection.",
    "    AT selects before forwarding, before reply bytes, after the full reply, or an offset.",
    "    DURATION is stall milliseconds (default 10000); only FAULT STALL delays.",
    "    FAULT and TRUNCATE cannot both be enabled. RESET requires a TCP client.",
    "Related command: DEBUG CHAOS <0..100> [SEED <u64>] [HASH <BLAKE3|TLSH>]",
    "    Expand temperature into fault settings; zero disables all faults.",
    "    Return the current output fingerprint (default BLAKE3). Inspect settings with STATUS."
  ]

/-- The commands that are not mutated unless the client asks for it. -/
def defaultExcludedCommands : List String :=
  ["AUTH", "HELLO", "COMMAND", "CLIENT", "SELECT", "ASKING", "MULTI", "DISCARD", "SUBSCRIBE",
    "PSUBSCRIBE", "SSUBSCRIBE", "UNSUBSCRIBE", "QUIT"]

/-! ## Modes -/

/-- What happens to the replies of the upstream. -/
inductive EvilMode where
  | off
  | random
  | mutate
  | overflow
deriving DecidableEq

/-- A mode as the status shows it. -/
def EvilMode.asStr : EvilMode → String
  | off => "OFF"
  | random => "RANDOM"
  | mutate => "MUTATE"
  | overflow => "OVERFLOW"

/-- Read a mode, in any letter case. -/
def EvilMode.fromStr (lib : Externals) (value : String) : AppResult EvilMode :=
  match toAsciiUppercase value with
  | "OFF" => .ok .off
  | "RANDOM" => .ok .random
  | "MUTATE" => .ok .mutate
  | "OVERFLOW" => .ok .overflow
  | _ => .error (invalid ("unknown evil mode " ++ lib.debug value))

/-- Which collections are sorted before a reply is mutated. -/
inductive CanonicalizationMode where
  | all
  | unordered
  | none
deriving DecidableEq

/-- A canonicalization as the status shows it. -/
def CanonicalizationMode.asStr : CanonicalizationMode → String
  | all => "ALL"
  | unordered => "UNORDERED"
  | none => "NONE"

/-- Read a canonicalization, in any letter case. -/
def CanonicalizationMode.fromStr (lib : Externals) (value : String) :
    AppResult CanonicalizationMode :=
  match toAsciiUppercase value with
  | "ALL" => .ok .all
  | "UNORDERED" => .ok .unordered
  | "NONE" => .ok .none
  | _ => .error (invalid ("unknown canonicalization mode " ++ lib.debug value))

/-- Whether mutations keep the kind of a frame or may replace it. -/
inductive MutationStrategy where
  | preserve
  | replace
deriving DecidableEq

/-- A strategy as the status shows it. -/
def MutationStrategy.asStr : MutationStrategy → String
  | preserve => "PRESERVE"
  | replace => "REPLACE"

/-- Read a strategy, in any letter case. -/
def MutationStrategy.parse (value : String) : AppResult MutationStrategy :=
  match toAsciiUppercase value with
  | "PRESERVE" => .ok .preserve
  | "REPLACE" => .ok .replace
  | _ => .error (invalid "DEBUG EVIL STRATEGY requires PRESERVE or REPLACE")

/-- Whether one frame of a reply is mutated or several. -/
inductive MutationCount where
  | one
  | many
deriving DecidableEq

/-- A count as the status shows it. -/
def MutationCount.asStr : MutationCount → String
  | one => "ONE"
  | many => "MANY"

/-- Read a count, in any letter case. -/
def MutationCount.parse (value : String) : AppResult MutationCount :=
  match toAsciiUppercase value with
  | "ONE" => .ok .one
  | "MANY" => .ok .many
  | _ => .error (invalid "DEBUG EVIL MUTATIONS requires ONE or MANY")

/-- How nesting depth influences which original frame a mutation targets. -/
inductive MutationDepth where
  | any
  | inner
deriving DecidableEq

/-- A depth setting as the status shows it. -/
def MutationDepth.asStr : MutationDepth → String
  | any => "ANY"
  | inner => "INNER"

/-- Read a depth setting, in any letter case. -/
def MutationDepth.parse (value : String) : AppResult MutationDepth :=
  match toAsciiUppercase value with
  | "ANY" => .ok .any
  | "INNER" => .ok .inner
  | _ => .error (invalid "DEBUG EVIL DEPTH requires ANY or INNER")

/-- Relative selection weight of a frame at a depth; the root is at depth zero. -/
def MutationDepth.weight (mode : MutationDepth) (depth : Nat) : Nat :=
  match mode with
  | any => 1
  | inner => 2 ^ min depth 64

/-- Every frame may be selected, however deep it is. -/
theorem weight_pos (mode : MutationDepth) (depth : Nat) : 0 < mode.weight depth := by
  cases mode with
  | any => exact Nat.one_pos
  | inner => exact Nat.two_pow_pos _

/-- Scale an independent probability so that the deepest eligible frame keeps all
of it and every level above has half of the one below. -/
def MutationDepth.scale (mode : MutationDepth) (probability : F64) (depth maxDepth : Nat) : F64 :=
  match mode with
  | any => probability
  | inner => probability.divRat (2 ^ min (maxDepth - depth) 64)

/-! ## Configuration -/

/-- The settings of one connection; the defaults are those before its first command. -/
structure EvilConfig where
  seed : UInt64 := 0
  mode : EvilMode := .off
  probability : F64 := .zero
  topologyProbability : F64 := .zero
  topologyRedirect : Option RedirectConfig := none
  canonicalization : CanonicalizationMode := .unordered
  strategy : MutationStrategy := .preserve
  mutationCount : MutationCount := .many
  depth : MutationDepth := .inner
  framing : FramingConfig := .auto
  generator : GeneratorConfig := {}
  exec : ExecConfig := {}
  transport : TransportConfig := {}
  included : List FilterSpec := []
  excluded : List FilterSpec := defaultExcludedCommands.map FilterSpec.ofLiteral

/-- What the connection still has to do after a command. -/
inductive DebugAction where
  | none
  | resetIncrementingState
deriving DecidableEq

/-- The reply to a command, with what is left to do. -/
structure DebugResult where
  frame : Frame
  action : DebugAction := .none
deriving DecidableEq

/-- The plain acknowledgement. -/
def DebugResult.ok : DebugResult :=
  { frame := .simpleString "OK" }

namespace EvilConfig

/-- A seed is an unsigned number of 64 bits. -/
def parseSeed (value : String) : AppResult UInt64 :=
  match parseUnsigned 64 value with
  | .ok seed => .ok (UInt64.ofNat seed)
  | .error error => .error (invalid ("invalid seed: " ++ error.message))

/-- All settings on one line, as {lit}`DEBUG EVIL STATUS` shows them. -/
def status (config : EvilConfig) : String :=
  let included := String.intercalate "," (config.included.map FilterSpec.display)
  let excluded := String.intercalate "," (config.excluded.map FilterSpec.display)
  let topology :=
    match config.topologyRedirect with
    | some redirect => redirect.status
    | none => "topology=LEGACY"
  let probability := config.probability.displayFixed 2
  let topologyProbability := config.topologyProbability.displayFixed 2
  s!"mode={config.mode.asStr} seed={config.seed} probability={probability} topology_probability={topologyProbability} canonicalize={config.canonicalization.asStr} include=[{included}] exclude=[{excluded}] strategy={config.strategy.asStr} mutations={config.mutationCount.asStr} depth={config.depth.asStr} {config.framing.status} {config.generator.status} {config.transport.status} {topology} {config.exec.status}"

/-- Whether the filters let replies of a command be changed. -/
def shouldMutateCommand (config : EvilConfig) : Option String → Bool
  | none => false
  | some command =>
      if !config.included.isEmpty ∧ !config.included.any (·.matchesCommand command) then false
      else !config.excluded.any (·.matchesCommand command)

/-- Set the seed; nothing may follow it. -/
def applySeed (config : EvilConfig) : List String → AppResult (EvilConfig × DebugResult)
  | [] => .error (invalid "DEBUG EVIL SEED requires a seed")
  | seed :: options => do
      if options ≠ [] then .error (invalid "DEBUG EVIL SEED does not accept options")
      else
        let seed ← parseSeed seed
        .ok ({ config with seed }, .ok)

/-- The optional probability after a mode. -/
def parseModeProbability (mode : EvilMode) : List String → AppResult F64
  | [] => .ok (if mode = .off then .zero else .hundred)
  | [option, value] =>
      if eqIgnoreAsciiCase option "PROBABILITY" then parseProbability value
      else .error (invalid "expected optional PROBABILITY <0.00-100.00>")
  | _ => .error (invalid "expected optional PROBABILITY <0.00-100.00>")

/-- Set the mode and its probability, or ask for a reset of the shared counters. -/
def applyMode (lib : Externals) (config : EvilConfig) :
    List String → AppResult (EvilConfig × DebugResult)
  | [] => .error (invalid "DEBUG EVIL MODE requires a mode")
  | mode :: options => do
      if eqIgnoreAsciiCase mode "RESET" then
        if options ≠ [] then
          .error (invalid "DEBUG EVIL MODE RESET does not accept options")
        else
          .ok ({ config with mode := .off, probability := .zero },
            { frame := .simpleString "OK", action := .resetIncrementingState })
      else
        let mode ← EvilMode.fromStr lib mode
        let probability ← parseModeProbability mode options
        .ok ({ config with mode, probability }, .ok)

/-- A command with exactly one argument. -/
def oneArgument (usage : String) : List String → AppResult String
  | [value] => .ok value
  | _ => .error (invalid usage)

/-- Read the only argument of {lit}`CANONICALIZE`. -/
def parseCanonicalization (lib : Externals) : List String → AppResult CanonicalizationMode
  | [] => .error (invalid "DEBUG EVIL CANONICALIZE requires ALL, UNORDERED, or NONE")
  | mode :: options =>
      if options ≠ [] then .error (invalid "DEBUG EVIL CANONICALIZE does not accept options")
      else CanonicalizationMode.fromStr lib mode

/-- The subcommands, by their upper-case name. -/
def applySubcommand (lib : Externals) (config : EvilConfig) (name : String) (args : List String) :
    AppResult (EvilConfig × DebugResult) :=
  match name with
  | "SEED" => config.applySeed args
  | "MODE" => config.applyMode lib args
  | "EXEC" => do
      let exec ← ExecConfig.parse args
      .ok ({ config with exec }, .ok)
  | "TRANSPORT" => do
      let transport ← config.transport.updated args
      .ok ({ config with transport }, .ok)
  | "GENERATOR" => do
      let generator ← config.generator.updated args
      .ok ({ config with generator }, .ok)
  | "FRAMING" => do
      let framing ← FramingConfig.parse args
      .ok ({ config with framing }, .ok)
  | "STRATEGY" => do
      let value ← oneArgument "DEBUG EVIL STRATEGY requires PRESERVE or REPLACE" args
      let strategy ← MutationStrategy.parse value
      .ok ({ config with strategy }, .ok)
  | "MUTATIONS" => do
      let value ← oneArgument "DEBUG EVIL MUTATIONS requires ONE or MANY" args
      let mutationCount ← MutationCount.parse value
      .ok ({ config with mutationCount }, .ok)
  | "DEPTH" => do
      let value ← oneArgument "DEBUG EVIL DEPTH requires ANY or INNER" args
      let depth ← MutationDepth.parse value
      .ok ({ config with depth }, .ok)
  | "CANONICALIZE" => do
      let canonicalization ← parseCanonicalization lib args
      .ok ({ config with canonicalization }, .ok)
  | "TOPOLOGY" => do
      let (topologyProbability, topologyRedirect) ← parseTopology lib args
      .ok ({ config with topologyProbability, topologyRedirect }, .ok)
  | "HELP" =>
      if args ≠ [] then .error (invalid "DEBUG EVIL HELP does not accept options")
      else .ok (config, { frame := .array (some (debugEvilHelp.map .simpleString)) })
  | "STATUS" =>
      if args ≠ [] then .error (invalid "DEBUG EVIL STATUS does not accept options")
      else .ok (config, { frame := .bulkString (some (asBytes config.status)) })
  | "INCLUDE" => do
      let filters ← compileFilters lib args
      .ok ({ config with included := filters }, .ok)
  | "EXCLUDE" => do
      let filters ← compileFilters lib args
      .ok ({ config with excluded := filters }, .ok)
  | other => .error (invalid ("unknown DEBUG EVIL subcommand " ++ lib.debug other))

/-- Run one {lit}`DEBUG EVIL` command.  Returns the new configuration and the reply. -/
def applyDebugCommand (lib : Externals) (config : EvilConfig) :
    List String → AppResult (EvilConfig × DebugResult)
  | debug :: evil :: name :: args =>
      if !eqIgnoreAsciiCase debug "DEBUG" ∨ !eqIgnoreAsciiCase evil "EVIL" then
        .error (invalid "expected DEBUG EVIL subcommand")
      else config.applySubcommand lib (toAsciiUppercase name) args
  | _ => .error (invalid "expected DEBUG EVIL subcommand")

/-! ### Replies -/

/-- The replies of an accepted command. -/
inductive AcceptedReply (config : EvilConfig) : Frame → Prop where
  | ok : AcceptedReply config (.simpleString "OK")
  | help : AcceptedReply config (.array (some (debugEvilHelp.map .simpleString)))
  | status : AcceptedReply config (.bulkString (some (asBytes config.status)))

/-- A step whose result is only acknowledged. -/
theorem acceptedReply_bind {config next : EvilConfig} {result : DebugResult} {α : Type}
    {x : AppResult α} {f : α → AppResult (EvilConfig × DebugResult)}
    (hf : ∀ a, f a = .ok (next, result) → AcceptedReply config result.frame)
    (h : (x >>= f) = .ok (next, result)) : AcceptedReply config result.frame := by
  obtain ⟨a, -, ha⟩ := bind_eq_ok_iff.mp h
  exact hf a ha

/-- An acknowledged command is answered as every command that sets something. -/
theorem acceptedReply_ok {config next next' : EvilConfig} {result : DebugResult}
    (h : (.ok (next', DebugResult.ok) : AppResult (EvilConfig × DebugResult)) =
      .ok (next, result)) : AcceptedReply config result.frame := by
  obtain ⟨-, rfl⟩ := Prod.mk.inj (Except.ok.inj h)
  exact .ok

variable {lib : Externals} {config next : EvilConfig} {result : DebugResult}

/-- A seed that is accepted is acknowledged. -/
theorem applySeed_reply {args : List String} (h : config.applySeed args = .ok (next, result)) :
    AcceptedReply config result.frame := by
  cases args with
  | nil => cases h
  | cons seed options =>
      simp only [applySeed] at h
      split_ifs at h
      exact acceptedReply_bind (fun _ => acceptedReply_ok) h

/-- A mode that is accepted is acknowledged. -/
theorem applyMode_reply {args : List String} (h : config.applyMode lib args = .ok (next, result)) :
    AcceptedReply config result.frame := by
  cases args with
  | nil => cases h
  | cons mode options =>
      simp only [applyMode] at h
      split_ifs at h
      · obtain ⟨-, rfl⟩ := Prod.mk.inj (Except.ok.inj h)
        exact .ok
      · exact acceptedReply_bind (fun _ => acceptedReply_bind fun _ => acceptedReply_ok) h

/-- Every subcommand that is accepted answers what accepted commands answer. -/
theorem applySubcommand_reply {name : String} {args : List String}
    (h : config.applySubcommand lib name args = .ok (next, result)) :
    AcceptedReply config result.frame := by
  unfold applySubcommand at h
  split at h
  case h_1 => exact applySeed_reply h
  case h_2 => exact applyMode_reply h
  case h_12 =>
    split_ifs at h
    obtain ⟨-, rfl⟩ := Prod.mk.inj (Except.ok.inj h)
    exact .help
  case h_13 =>
    split_ifs at h
    obtain ⟨-, rfl⟩ := Prod.mk.inj (Except.ok.inj h)
    exact .status
  case h_7 | h_8 | h_9 =>
    exact acceptedReply_bind (fun _ => acceptedReply_bind fun _ => acceptedReply_ok) h
  case h_16 => cases h
  all_goals exact acceptedReply_bind (fun _ => acceptedReply_ok) h

/-- Every command that is accepted answers what accepted commands answer. -/
theorem applyDebugCommand_reply {argv : List String}
    (h : config.applyDebugCommand lib argv = .ok (next, result)) :
    AcceptedReply config result.frame := by
  unfold applyDebugCommand at h
  split at h
  · split_ifs at h
    exact applySubcommand_reply h
  · cases h

/-! ### Errors -/

/-- The rejections that repeat client text unquoted, with the text: an unknown name
among the redirect options, and the message about a refused expression. -/
inductive RawError (lib : Externals) : List String → String → Prop where
  | unknownOption {debug evil name option : String} {args : List String} :
      eqIgnoreAsciiCase debug "DEBUG" = true → eqIgnoreAsciiCase evil "EVIL" = true →
      toAsciiUppercase name = "TOPOLOGY" → UnknownOption lib args option →
      RawError lib (debug :: evil :: name :: args)
        ("unknown topology option " ++ toAsciiUppercase option)
  | invalidRegex {debug evil name value error : String} {args : List String} :
      eqIgnoreAsciiCase debug "DEBUG" = true → eqIgnoreAsciiCase evil "EVIL" = true →
      toAsciiUppercase name = "INCLUDE" ∨ toAsciiUppercase name = "EXCLUDE" →
      FirstRefused lib args value error →
      RawError lib (debug :: evil :: name :: args)
        ("invalid regex " ++ lib.debug value ++ ": " ++ error)

/-- A quoted argument is on one line, whatever the argument is. -/
theorem singleLine_debug (value : String) : SingleLine (lib.debug value) :=
  singleLine_debugString lib.printable value

/-- A quoted value after a fixed text is quiet. -/
theorem quiet_quoted {α : Type} {before : String} (h : SingleLine before) (value : String) :
    Quiet (.error (invalid (before ++ lib.debug value)) : AppResult α) :=
  quiet_invalid (singleLine_append.mpr ⟨h, singleLine_debug value⟩)

/-- An unknown mode is refused on one line. -/
theorem quiet_modeFromStr (value : String) : Quiet (EvilMode.fromStr lib value) := by
  unfold EvilMode.fromStr
  split
  case h_5 => exact quiet_quoted (singleLine_ofList rfl) value
  all_goals exact quiet_ok

/-- An unknown canonicalization is refused on one line. -/
theorem quiet_canonicalizationFromStr (value : String) :
    Quiet (CanonicalizationMode.fromStr lib value) := by
  unfold CanonicalizationMode.fromStr
  split
  case h_4 => exact quiet_quoted (singleLine_ofList rfl) value
  all_goals exact quiet_ok

/-- An unknown strategy is refused on one line. -/
theorem quiet_parseStrategy (value : String) : Quiet (MutationStrategy.parse value) := by
  unfold MutationStrategy.parse
  split
  case h_3 => exact quiet_invalid (singleLine_ofList rfl)
  all_goals exact quiet_ok

/-- An unknown count is refused on one line. -/
theorem quiet_parseCount (value : String) : Quiet (MutationCount.parse value) := by
  unfold MutationCount.parse
  split
  case h_3 => exact quiet_invalid (singleLine_ofList rfl)
  all_goals exact quiet_ok

/-- An unknown depth setting is refused on one line. -/
theorem quiet_parseDepth (value : String) : Quiet (MutationDepth.parse value) := by
  unfold MutationDepth.parse
  split
  case h_3 => exact quiet_invalid (singleLine_ofList rfl)
  all_goals exact quiet_ok

/-- A seed that is no number is refused on one line. -/
theorem quiet_parseSeed (value : String) : Quiet (parseSeed value) := by
  unfold parseSeed
  split
  · exact quiet_ok
  · rename_i error _
    apply quiet_invalid
    exact singleLine_append.mpr ⟨singleLine_ofList rfl, singleLine_intErrorKind error⟩

/-- A seed with something behind it is refused on one line. -/
theorem quiet_applySeed (config : EvilConfig) (args : List String) :
    Quiet (config.applySeed args) := by
  cases args with
  | nil => exact quiet_invalid (singleLine_ofList rfl)
  | cons seed options =>
      apply quiet_ite
      · exact quiet_invalid (singleLine_ofList rfl)
      · exact quiet_bind (quiet_parseSeed seed) fun _ _ => quiet_ok

/-- A probability that the mode does not take is refused on one line. -/
theorem quiet_parseModeProbability (mode : EvilMode) (args : List String) :
    Quiet (parseModeProbability mode args) := by
  unfold parseModeProbability
  split
  · exact quiet_ok
  · rename_i option value
    apply quiet_ite (quiet_parseProbability value)
    exact quiet_invalid (singleLine_ofList rfl)
  · exact quiet_invalid (singleLine_ofList rfl)

/-- A mode command is refused on one line. -/
theorem quiet_applyMode (config : EvilConfig) (args : List String) :
    Quiet (config.applyMode lib args) := by
  cases args with
  | nil => exact quiet_invalid (singleLine_ofList rfl)
  | cons mode options =>
      apply quiet_ite
      · apply quiet_ite _ quiet_ok
        exact quiet_invalid (singleLine_ofList rfl)
      · refine quiet_bind (quiet_modeFromStr mode) fun mode _ => ?_
        exact quiet_bind (quiet_parseModeProbability mode options) fun _ _ => quiet_ok

/-- A missing or a second argument is refused with the usage. -/
theorem quiet_oneArgument {usage : String} (h : SingleLine usage) (args : List String) :
    Quiet (oneArgument usage args) := by
  unfold oneArgument
  split
  · exact quiet_ok
  · exact quiet_invalid h

/-- A canonicalization with something behind it is refused on one line. -/
theorem quiet_parseCanonicalization (args : List String) :
    Quiet (parseCanonicalization lib args) := by
  cases args with
  | nil => exact quiet_invalid (singleLine_ofList rfl)
  | cons mode options =>
      apply quiet_ite
      · exact quiet_invalid (singleLine_ofList rfl)
      · exact quiet_canonicalizationFromStr mode

/-- Every other subcommand is quiet. -/
theorem quiet_applySubcommand (config : EvilConfig) {name : String} (args : List String)
    (htopology : name ≠ "TOPOLOGY") (hinclude : name ≠ "INCLUDE") (hexclude : name ≠ "EXCLUDE") :
    Quiet (config.applySubcommand lib name args) := by
  unfold applySubcommand
  split
  · exact quiet_applySeed config args
  · exact quiet_applyMode config args
  · exact quiet_bind (ExecConfig.quiet_parse args) fun _ _ => quiet_ok
  · exact quiet_bind (config.transport.quiet_updated args) fun _ _ => quiet_ok
  · exact quiet_bind (config.generator.quiet_updated args) fun _ _ => quiet_ok
  · exact quiet_bind (FramingConfig.quiet_parse args) fun _ _ => quiet_ok
  · refine quiet_bind (quiet_oneArgument (singleLine_ofList rfl) args) fun value _ => ?_
    exact quiet_bind (quiet_parseStrategy value) fun _ _ => quiet_ok
  · refine quiet_bind (quiet_oneArgument (singleLine_ofList rfl) args) fun value _ => ?_
    exact quiet_bind (quiet_parseCount value) fun _ _ => quiet_ok
  · refine quiet_bind (quiet_oneArgument (singleLine_ofList rfl) args) fun value _ => ?_
    exact quiet_bind (quiet_parseDepth value) fun _ _ => quiet_ok
  · exact quiet_bind (quiet_parseCanonicalization args) fun _ _ => quiet_ok
  · exact absurd rfl htopology
  · apply quiet_ite _ quiet_ok
    exact quiet_invalid (singleLine_ofList rfl)
  · apply quiet_ite _ quiet_ok
    exact quiet_invalid (singleLine_ofList rfl)
  · exact absurd rfl hinclude
  · exact absurd rfl hexclude
  · exact quiet_quoted (singleLine_ofList rfl) _

/-- A rejected list of filters is reported by both filter commands. -/
theorem applySubcommand_filters {config : EvilConfig} {name : String} {args : List String}
    {error : AppError} (hname : name = "INCLUDE" ∨ name = "EXCLUDE") :
    config.applySubcommand lib name args = .error error ↔
      compileFilters lib args = .error error := by
  rcases hname with rfl | rfl
  · simp only [applySubcommand, bind_eq_error_iff, reduceCtorEq, and_false, exists_false, or_false]
  · simp only [applySubcommand, bind_eq_error_iff, reduceCtorEq, and_false, exists_false, or_false]

/-- A topology command is refused exactly if its arguments are. -/
theorem applySubcommand_topology {config : EvilConfig} {args : List String} {error : AppError} :
    config.applySubcommand lib "TOPOLOGY" args = .error error ↔
      parseTopology lib args = .error error := by
  simp only [applySubcommand, bind_eq_error_iff, reduceCtorEq, and_false, exists_false, or_false]

/-- The subcommand decides once the first two arguments are recognized. -/
theorem applyDebugCommand_header {config : EvilConfig} {debug evil name : String}
    {args : List String} (hdebug : eqIgnoreAsciiCase debug "DEBUG" = true)
    (hevil : eqIgnoreAsciiCase evil "EVIL" = true) :
    config.applyDebugCommand lib (debug :: evil :: name :: args) =
      config.applySubcommand lib (toAsciiUppercase name) args := by
  simp only [applyDebugCommand, hdebug, hevil, Bool.not_true, Bool.false_eq_true, or_self, if_false]

/-- A rejected command reports a single line, or repeats client text. -/
theorem applyDebugCommand_error {config : EvilConfig} {argv : List String} {error : AppError}
    (h : config.applyDebugCommand lib argv = .error error) :
    SingleLine error.message ∨ ∃ message, RawError lib argv message ∧ error = invalid message := by
  have husage : SingleLine (invalid "expected DEBUG EVIL subcommand").message :=
    singleLine_invalid.mpr (singleLine_ofList rfl)
  match argv with
  | [] | [_] | [_, _] =>
      obtain rfl := Except.error.inj h
      exact .inl husage
  | debug :: evil :: name :: args =>
      by_cases hheader :
          eqIgnoreAsciiCase debug "DEBUG" = true ∧ eqIgnoreAsciiCase evil "EVIL" = true
      · obtain ⟨hdebug, hevil⟩ := hheader
        rw [applyDebugCommand_header hdebug hevil] at h
        by_cases htopology : toAsciiUppercase name = "TOPOLOGY"
        · rw [htopology, applySubcommand_topology] at h
          rcases parseTopology_error h with hline | ⟨option, hunknown, rfl⟩
          · exact .inl hline
          · exact .inr ⟨_, .unknownOption hdebug hevil htopology hunknown, rfl⟩
        · by_cases hfilter :
              toAsciiUppercase name = "INCLUDE" ∨ toAsciiUppercase name = "EXCLUDE"
          · rw [applySubcommand_filters hfilter, compileFilters_error] at h
            obtain ⟨value, message, hrefused, rfl⟩ := h
            exact .inr ⟨_, .invalidRegex hdebug hevil hfilter hrefused, rfl⟩
          · rw [not_or] at hfilter
            exact .inl (quiet_applySubcommand config args htopology hfilter.1 hfilter.2 error h)
      · have hrefused : config.applyDebugCommand lib (debug :: evil :: name :: args) =
            .error (invalid "expected DEBUG EVIL subcommand") := by
          rw [applyDebugCommand, if_pos]
          rw [not_and_or] at hheader
          simpa using hheader
        rw [hrefused] at h
        obtain rfl := Except.error.inj h
        exact .inl husage

/-- Every such rejection happens, whatever the configuration. -/
theorem applyDebugCommand_rawError {argv : List String} {message : String}
    (h : RawError lib argv message) (config : EvilConfig) :
    config.applyDebugCommand lib argv = .error (invalid message) := by
  cases h with
  | unknownOption hdebug hevil hname hunknown =>
      rw [applyDebugCommand_header hdebug hevil, hname, applySubcommand_topology]
      exact parseTopology_unknown hunknown
  | invalidRegex hdebug hevil hname hrefused =>
      rw [applyDebugCommand_header hdebug hevil, applySubcommand_filters hname]
      exact compileFilters_error.mpr ⟨_, _, hrefused, rfl⟩

end EvilConfig

end EvilResp
