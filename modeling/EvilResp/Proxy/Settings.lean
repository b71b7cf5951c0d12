import EvilResp.Config.Ranges
import EvilResp.Proxy.Debug

/-!
# Settings in their ranges

Fifteen subcommands and the temperature preset write overlapping parts of one
record.  Every parser returns settings in their ranges, so whatever is committed
is valid, and a rejection commits nothing.  A reset fault that the connection
cannot perform is taken back after the commit; only a transport command brings one
in, so giving the old transport back undoes the whole command.

Main results:

- Theorem {lit}`EvilConfig.Valid.applyDebugEvil` and {lit}`EvilConfig.Valid.applyDebugChaos`:
  one command keeps the settings valid.
- Theorem {lit}`EvilConfig.settle_valid`: after any commands the settings are valid,
  and the next command that is rejected leaves them as they are.
-/

namespace EvilResp

open Library
open EvilResp.Resp

/-! ## The other settings -/

namespace ExecConfig

theorem isPercent_parse {args : List String} {config : ExecConfig} (h : parse args = .ok config) :
    IsPercent config.probability := by
  cases args with
  | nil => cases h
  | cons name args =>
      rcases bind_eq_ok_iff.mp h with ⟨action, -, hargs⟩
      split at hargs
      · cases hargs
        exact isPercent_hundred
      · split at hargs
        · rcases bind_eq_ok_iff.mp hargs with ⟨probability, hprobability, hok⟩
          cases hok
          exact EvilResp.isPercent_parse hprobability
        · cases hargs
      · cases hargs

end ExecConfig

namespace FramingConfig

/-- The probability of a length fault is a percentage. -/
def InRanges (config : FramingConfig) : Prop :=
  ∀ options, config = .length options → IsPercent options.probability

theorem inRanges_applyOption {config : LengthConfig} {option value : String}
    {next : LengthConfig × Nat} (h : config.applyOption option value = .ok next)
    (hconfig : IsPercent config.probability) : IsPercent next.1.probability := by
  unfold LengthConfig.applyOption at h
  split at h
  · rcases bind_eq_ok_iff.mp h with ⟨probability, hprobability, hok⟩
    cases hok
    exact isPercent_parse hprobability
  · rcases bind_eq_ok_iff.mp h with ⟨target, -, hok⟩
    cases hok
    exact hconfig
  · rcases bind_eq_ok_iff.mp h with ⟨kind, -, hok⟩
    cases hok
    exact hconfig
  · cases h

theorem inRanges_parse {args : List String} {config : FramingConfig} (h : parse args = .ok config) :
    config.InRanges := by
  rintro options rfl
  unfold parse at h
  split at h
  · cases h
  · split at h
    · split_ifs at h
      cases h
    · split_ifs at h
      cases h
    · simp only [parseLength] at h
      split_ifs at h
      rcases bind_eq_ok_iff.mp h with ⟨applied, happlied, hok⟩
      rcases FramingConfig.length.inj (Except.ok.inj hok) with rfl
      have hpercent : IsPercent ({} : LengthConfig).probability := isPercent_hundred
      exact applyOptions_invariant (P := fun config => IsPercent config.probability)
        (fun _ => inRanges_applyOption) happlied hpercent
    · cases h

end FramingConfig

namespace RedirectConfig

/-- The ranges of the redirect settings. -/
structure InRanges (config : RedirectConfig) : Prop where
  slot : ∀ slot, config.slot = .fixed slot → slot < 16384
  key : 0 < config.key

theorem inRanges_default : InRanges {} where
  slot := by simp
  key := Nat.one_pos

theorem parseSlot_inRange {value : String} {slot : Nat} (h : parseSlot value = .ok (.fixed slot)) :
    slot < 16384 := by
  unfold parseSlot at h
  split at h
  case h_4 =>
    split at h
    · split at h
      · rcases RedirectSlot.fixed.inj (Except.ok.inj h) with rfl
        assumption
      · cases h
    · cases h
  all_goals cases h

theorem parseKey_inRange {value : String} {key : Nat} (h : parseKey value = .ok key) : 0 < key := by
  unfold parseKey at h
  split at h
  · split at h
    · cases h
      assumption
    · cases h
  · cases h

theorem inRanges_applyOption {lib : Externals} {settings next : F64 × RedirectConfig}
    {option value : String} (h : applyOption lib settings option value = .ok next)
    (hsettings : IsPercent settings.1 ∧ settings.2.InRanges) :
    IsPercent next.1 ∧ next.2.InRanges := by
  rcases settings with ⟨probability, config⟩
  rcases hsettings with ⟨hpercent, hconfig⟩
  simp only [applyOption] at h
  split at h
  · rcases bind_eq_ok_iff.mp h with ⟨parsed, hparsed, hok⟩
    cases hok
    exact ⟨isPercent_parse hparsed, hconfig⟩
  · rcases bind_eq_ok_iff.mp h with ⟨kind, -, hok⟩
    cases hok
    exact ⟨hpercent, hconfig.slot, hconfig.key⟩
  · rcases bind_eq_ok_iff.mp h with ⟨target, -, hok⟩
    cases hok
    exact ⟨hpercent, hconfig.slot, hconfig.key⟩
  · rcases bind_eq_ok_iff.mp h with ⟨slot, hslot, hok⟩
    cases hok
    refine ⟨hpercent, ?_, hconfig.key⟩
    rintro fixed rfl
    exact parseSlot_inRange hslot
  · rcases bind_eq_ok_iff.mp h with ⟨phase, -, hok⟩
    cases hok
    exact ⟨hpercent, hconfig.slot, hconfig.key⟩
  · rcases bind_eq_ok_iff.mp h with ⟨key, hkey, hok⟩
    cases hok
    exact ⟨hpercent, hconfig.slot, parseKey_inRange hkey⟩
  · rcases bind_eq_ok_iff.mp h with ⟨cutoff, -, hok⟩
    cases hok
    exact ⟨hpercent, hconfig.slot, hconfig.key⟩
  · cases h

theorem inRanges_applyOptions {lib : Externals} {options : List (String × String)} :
    ∀ {seen : List String} {settings next : F64 × RedirectConfig},
      applyOptions lib options seen settings = .ok next →
      IsPercent settings.1 ∧ settings.2.InRanges → IsPercent next.1 ∧ next.2.InRanges := by
  induction options with
  | nil =>
      intro seen settings next h hsettings
      exact Except.ok.inj h ▸ hsettings
  | cons pair options ih =>
      intro seen settings next h hsettings
      simp only [applyOptions] at h
      split_ifs at h
      rcases bind_eq_ok_iff.mp h with ⟨first, hfirst, hrest⟩
      exact ih hrest (inRanges_applyOption hfirst hsettings)

end RedirectConfig

theorem inRanges_parseTopology {lib : Externals} {args : List String}
    {settings : F64 × Option RedirectConfig} (h : parseTopology lib args = .ok settings) :
    IsPercent settings.1 ∧ ∀ redirect, settings.2 = some redirect → redirect.InRanges := by
  cases args with
  | nil => cases h
  | cons first args =>
      simp only [parseTopology] at h
      split_ifs at h
      · cases h
        exact ⟨isPercent_zero, by simp⟩
      · obtain ⟨probability, hparse, rfl⟩ := map_eq_ok_iff.mp h
        exact ⟨isPercent_parse hparse, by simp⟩
      · obtain ⟨applied, happly, rfl⟩ := map_eq_ok_iff.mp h
        rcases RedirectConfig.inRanges_applyOptions happly
          ⟨isPercent_hundred, RedirectConfig.inRanges_default⟩ with ⟨hpercent, hranges⟩
        refine ⟨hpercent, ?_⟩
        rintro redirect ⟨⟩
        exact hranges

/-! ## One command -/

namespace EvilConfig

/-- All settings in their ranges, on a connection that can or cannot be reset. -/
structure Valid (resetSupported : Bool) (config : EvilConfig) : Prop where
  probability : IsPercent config.probability
  topology : IsPercent config.topologyProbability
  redirect : ∀ redirect, config.topologyRedirect = some redirect → redirect.InRanges
  framing : config.framing.InRanges
  exec : IsPercent config.exec.probability
  transport : config.transport.Valid
  reset : resetSupported = false → config.transport.fault.action ≠ .reset

/-- The ranges without the rule about the connection. -/
abbrev InRanges (config : EvilConfig) : Prop :=
  config.Valid true

theorem valid_default (resetSupported : Bool) : ({} : EvilConfig).Valid resetSupported where
  probability := isPercent_zero
  topology := isPercent_zero
  redirect := by simp
  framing := by rintro options ⟨⟩
  exec := isPercent_hundred
  transport := TransportConfig.valid_default
  reset := by simp

theorem Valid.inRanges {resetSupported : Bool} {config : EvilConfig}
    (h : config.Valid resetSupported) : config.InRanges where
  probability := h.probability
  topology := h.topology
  redirect := h.redirect
  framing := h.framing
  exec := h.exec
  transport := h.transport
  reset := by simp

theorem InRanges.valid {resetSupported : Bool} {config : EvilConfig} (h : config.InRanges)
    (hreset : resetSupported = false → config.transport.fault.action ≠ .reset) :
    config.Valid resetSupported where
  probability := h.probability
  topology := h.topology
  redirect := h.redirect
  framing := h.framing
  exec := h.exec
  transport := h.transport
  reset := hreset

variable {lib : Externals} {config next : EvilConfig} {result : DebugResult}

theorem inRanges_applyMode {args : List String} (h : config.applyMode lib args = .ok (next, result))
    (hconfig : config.InRanges) : next.InRanges := by
  cases args with
  | nil => cases h
  | cons mode options =>
      simp only [applyMode] at h
      split_ifs at h
      · cases h
        exact { hconfig with probability := isPercent_zero }
      · rcases bind_eq_ok_iff.mp h with ⟨mode, -, hmode⟩
        rcases bind_eq_ok_iff.mp hmode with ⟨probability, hprobability, hok⟩
        cases hok
        refine { hconfig with probability := ?_ }
        unfold parseModeProbability at hprobability
        split at hprobability
        · cases hprobability
          by_cases hoff : mode = .off
          · simpa [hoff] using isPercent_zero
          · simpa [hoff] using isPercent_hundred
        · split_ifs at hprobability
          exact isPercent_parse hprobability
        · cases hprobability

/-- An accepted subcommand writes settings in their ranges.  Only a transport
command changes the transport, and it changes nothing else. -/
theorem inRanges_applySubcommand {name : String} {args : List String}
    (h : config.applySubcommand lib name args = .ok (next, result)) (hconfig : config.InRanges) :
    next.InRanges ∧
      (next.transport = config.transport ∨ { next with transport := config.transport } = config) := by
  unfold applySubcommand at h
  split at h
  · cases args with
    | nil => cases h
    | cons seed options =>
        simp only [applySeed] at h
        split_ifs at h
        rcases bind_eq_ok_iff.mp h with ⟨seed, -, hok⟩
        cases hok
        exact ⟨{ hconfig with }, .inl rfl⟩
  · refine ⟨inRanges_applyMode h hconfig, .inl ?_⟩
    cases args with
    | nil => cases h
    | cons mode options =>
        simp only [applyMode] at h
        split_ifs at h
        · cases h
          rfl
        · rcases bind_eq_ok_iff.mp h with ⟨mode, -, hmode⟩
          rcases bind_eq_ok_iff.mp hmode with ⟨probability, -, hok⟩
          cases hok
          rfl
  · rcases bind_eq_ok_iff.mp h with ⟨exec, hexec, hok⟩
    cases hok
    exact ⟨{ hconfig with exec := ExecConfig.isPercent_parse hexec }, .inl rfl⟩
  · rcases bind_eq_ok_iff.mp h with ⟨transport, htransport, hok⟩
    cases hok
    have hvalid : transport.Valid :=
      TransportConfig.valid_updated htransport hconfig.transport.toInRanges
    exact ⟨{ hconfig with transport := hvalid, reset := by simp }, .inr rfl⟩
  · rcases bind_eq_ok_iff.mp h with ⟨generator, -, hok⟩
    cases hok
    exact ⟨{ hconfig with }, .inl rfl⟩
  · rcases bind_eq_ok_iff.mp h with ⟨framing, hframing, hok⟩
    cases hok
    exact ⟨{ hconfig with framing := FramingConfig.inRanges_parse hframing }, .inl rfl⟩
  case h_7 | h_8 | h_9 =>
    rcases bind_eq_ok_iff.mp h with ⟨value, -, hvalue⟩
    rcases bind_eq_ok_iff.mp hvalue with ⟨choice, -, hok⟩
    cases hok
    exact ⟨{ hconfig with }, .inl rfl⟩
  · rcases bind_eq_ok_iff.mp h with ⟨canonicalization, -, hok⟩
    cases hok
    exact ⟨{ hconfig with }, .inl rfl⟩
  · rcases bind_eq_ok_iff.mp h with ⟨settings, hsettings, hok⟩
    cases hok
    rcases inRanges_parseTopology hsettings with ⟨hpercent, hredirect⟩
    exact ⟨{ hconfig with topology := hpercent, redirect := hredirect }, .inl rfl⟩
  case h_12 | h_13 =>
    split_ifs at h
    cases h
    exact ⟨hconfig, .inl rfl⟩
  case h_14 | h_15 =>
    rcases bind_eq_ok_iff.mp h with ⟨filters, -, hok⟩
    cases hok
    exact ⟨{ hconfig with }, .inl rfl⟩
  · cases h

theorem inRanges_applyDebugCommand {argv : List String}
    (h : config.applyDebugCommand lib argv = .ok (next, result)) (hconfig : config.InRanges) :
    next.InRanges ∧
      (next.transport = config.transport ∨ { next with transport := config.transport } = config) := by
  unfold applyDebugCommand at h
  split at h
  · split_ifs at h
    exact inRanges_applySubcommand h hconfig
  · cases h

/-- A settings command keeps the settings valid, also where a reset fault is taken
back. -/
theorem valid_applyDebugEvil {resetSupported : Bool} (hconfig : config.Valid resetSupported)
    (argv : List String) : (applyDebugEvil lib config argv resetSupported).1.Valid resetSupported := by
  unfold applyDebugEvil
  split <;> rename_i hcommand
  · rename_i next result
    rcases inRanges_applyDebugCommand hcommand hconfig.inRanges with ⟨hnext, -⟩
    by_cases hreset : next.transport.requiresTcp = true ∧ resetSupported = false
    · rw [if_pos (by simpa using hreset)]
      have htaken : InRanges { next with transport := config.transport } :=
        { hnext with transport := hconfig.transport, reset := by simp }
      exact htaken.valid hconfig.reset
    · rw [if_neg (by simpa using hreset)]
      refine hnext.valid fun hsupported haction => hreset ⟨?_, hsupported⟩
      simp [TransportConfig.requiresTcp, haction]
  · exact hconfig

/-- A rejected settings command changes nothing. -/
theorem applyDebugEvil_rejected {resetSupported : Bool}
    (hconfig : config.Valid resetSupported) {argv : List String} {error : AppError}
    (h : (applyDebugEvil lib config argv resetSupported).2.frame = rejected error) :
    (applyDebugEvil lib config argv resetSupported).1 = config := by
  unfold applyDebugEvil at h ⊢
  cases hcommand : config.applyDebugCommand lib argv with
  | error refused => rfl
  | ok step =>
    rcases step with ⟨next, result⟩
    simp only [hcommand] at h
    rcases inRanges_applyDebugCommand hcommand hconfig.inRanges with ⟨-, hsame⟩
    show (if _ then _ else _ : EvilConfig × DebugResult).1 = config
    by_cases hreset : next.transport.requiresTcp = true ∧ resetSupported = false
    · rw [if_pos (by simpa using hreset)]
      rcases hsame with hsame | hsame
      · -- The old transport holds no reset fault here, so a command that kept it has none.
        have haction : next.transport.fault.action = .reset := by
          simpa [TransportConfig.requiresTcp] using hreset.1
        exact absurd (hsame ▸ haction) (hconfig.reset hreset.2)
      · exact hsame
    · rw [if_neg (by simpa using hreset)] at h
      have hreply := applyDebugCommand_reply hcommand
      rw [h] at hreply
      cases hreply

/-! ## The preset -/

/-- What is above fifty, halved, is a percentage again. -/
theorem isPercent_topology {temperature : F64} (h : IsPercent temperature) :
    IsPercent ((temperature.subRat 50).maxZero.divRat 2) := by
  rcases F64.le_hundred_finite h.2 with ⟨negative, magnitude, rfl, hlow, hhigh⟩
  apply isPercent_of_inRange
  rw [F64.maxZero_subRat]
  have hmax : max (F64.signed negative magnitude - 50) 0 ≤ 50 := max_le (by linarith) (by norm_num)
  have hzero : 0 ≤ max (F64.signed negative magnitude - 50) 0 := le_max_right _ _
  apply F64.inRange_finite.mpr
  constructor
  · positivity
  · linarith

/-- A preset replaces the transport, and without a fault. -/
theorem inRanges_expand {temperature : F64} {seed : UInt64}
    (h : Chaos.expand config temperature seed = .ok next)
    (htemperature : IsPercent temperature) :
    next.InRanges ∧ next.transport.fault.action ≠ .reset := by
  rcases bind_eq_ok_iff.mp h with ⟨generator, -, hgenerator⟩
  rcases bind_eq_ok_iff.mp hgenerator with ⟨exec, hexec, hrest⟩
  rcases bind_eq_ok_iff.mp hrest with ⟨framing, hframing, hrest⟩
  rcases bind_eq_ok_iff.mp hrest with ⟨transport, htransport, hok⟩
  cases hok
  have hexecPercent : IsPercent exec.probability := by
    unfold Chaos.expandExec at hexec
    split_ifs at hexec
    · exact ExecConfig.isPercent_parse hexec
    · cases hexec
      exact isPercent_hundred
  have hframingRanges : framing.InRanges := by
    unfold Chaos.expandFraming at hframing
    split_ifs at hframing
    · exact FramingConfig.inRanges_parse hframing
    · cases hframing
      rintro options ⟨⟩
  have htransportValid : transport.Valid ∧ transport.fault.action ≠ .reset := by
    unfold Chaos.expandTransport at htransport
    split_ifs at htransport
    · have hfault : transport.fault = {} := by
        refine TransportConfig.updated_fault htransport ?_ (by simp)
        intro option hoption
        simp only [asChunks2, List.map_cons, List.map_nil] at hoption
        fin_cases hoption <;> decide
      refine ⟨TransportConfig.valid_updated htransport TransportConfig.valid_default.toInRanges, ?_⟩
      rw [hfault]
      decide
    · cases htransport
      exact ⟨TransportConfig.valid_default, by decide⟩
  refine ⟨?_, htransportValid.2⟩
  exact {
    probability := htemperature
    topology := isPercent_topology htemperature
    redirect := by simp
    framing := hframingRanges
    exec := hexecPercent
    transport := htransportValid.1
    reset := by simp }

/-- A preset keeps the settings valid. -/
theorem valid_applyDebugChaos {resetSupported : Bool} (hconfig : config.Valid resetSupported)
    (fingerprints : ProtocolFingerprints) (argv : List String) :
    (applyDebugChaos lib config fingerprints argv).1.Valid resetSupported := by
  unfold applyDebugChaos
  cases hcommand : Chaos.apply lib config argv with
  | error refused => exact hconfig
  | ok step =>
      rcases step with ⟨next, hash⟩
      show next.Valid resetSupported
      rcases argv with _ | ⟨debug, _ | ⟨chaos, _ | ⟨temperature, args⟩⟩⟩
      · cases hcommand
      · cases hcommand
      · cases hcommand
      · simp only [Chaos.apply] at hcommand
        split_ifs at hcommand
        · rcases bind_eq_ok_iff.mp hcommand with ⟨parsed, -, hrest⟩
          cases hrest
        rcases bind_eq_ok_iff.mp hcommand with ⟨parsed, hparsed, hrest⟩
        rcases bind_eq_ok_iff.mp hrest with ⟨settings, -, hexpand⟩
        rcases bind_eq_ok_iff.mp hexpand with ⟨expanded, hexpanded, hok⟩
        cases hok
        have hpercent : IsPercent parsed := by
          unfold Chaos.parseTemperature at hparsed
          split at hparsed
          · cases hparsed
          · split at hparsed <;> rename_i hrange
            · cases hparsed
              exact isPercent_of_inRange hrange
            · cases hparsed
        rcases inRanges_expand hexpanded hpercent with ⟨hranges, hreset⟩
        exact hranges.valid fun _ => hreset

/-- A rejected preset changes nothing. -/
theorem applyDebugChaos_rejected {fingerprints : ProtocolFingerprints} {argv : List String}
    {error : AppError} (h : (applyDebugChaos lib config fingerprints argv).2 = rejected error) :
    (applyDebugChaos lib config fingerprints argv).1 = config := by
  unfold applyDebugChaos at h ⊢
  cases hcommand : Chaos.apply lib config argv with
  | error refused => rfl
  | ok step =>
      rw [hcommand] at h
      cases h

/-! ## Whole runs -/

/-- A command that changes the settings of a connection. -/
inductive DebugRequest where
  | evil (argv : List String)
  | chaos (fingerprints : ProtocolFingerprints) (argv : List String)

/-- Apply one command.  Returns the new settings and the reply. -/
def applyRequest (lib : Externals) (resetSupported : Bool) (config : EvilConfig) :
    DebugRequest → EvilConfig × Frame
  | .evil argv =>
      let (next, result) := applyDebugEvil lib config argv resetSupported
      (next, result.frame)
  | .chaos fingerprints argv => applyDebugChaos lib config fingerprints argv

/-- The settings after a sequence of commands. -/
def settle (lib : Externals) (resetSupported : Bool) (config : EvilConfig)
    (requests : List DebugRequest) : EvilConfig :=
  requests.foldl (fun config request => (applyRequest lib resetSupported config request).1) config

theorem valid_applyRequest {resetSupported : Bool} (hconfig : config.Valid resetSupported)
    (request : DebugRequest) :
    (applyRequest lib resetSupported config request).1.Valid resetSupported := by
  cases request with
  | evil argv => exact valid_applyDebugEvil hconfig argv
  | chaos fingerprints argv => exact valid_applyDebugChaos hconfig fingerprints argv

theorem applyRequest_rejected {resetSupported : Bool} (hconfig : config.Valid resetSupported)
    {request : DebugRequest} {error : AppError}
    (h : (applyRequest lib resetSupported config request).2 = rejected error) :
    (applyRequest lib resetSupported config request).1 = config := by
  cases request with
  | evil argv => exact applyDebugEvil_rejected hconfig h
  | chaos fingerprints argv => exact applyDebugChaos_rejected h

theorem valid_settle {resetSupported : Bool} (requests : List DebugRequest) :
    ∀ {config : EvilConfig}, config.Valid resetSupported →
      (settle lib resetSupported config requests).Valid resetSupported := by
  induction requests with
  | nil =>
      intro config hconfig
      exact hconfig
  | cons request requests ih =>
      intro config hconfig
      exact ih (valid_applyRequest hconfig request)

/-- After any commands the settings are valid, and a command that is rejected leaves
them exactly as they are. -/
theorem settle_valid (lib : Externals) (resetSupported : Bool) (requests : List DebugRequest) :
    (settle lib resetSupported {} requests).Valid resetSupported ∧
      ∀ (request : DebugRequest) (error : AppError),
        (applyRequest lib resetSupported (settle lib resetSupported {} requests) request).2 =
          rejected error →
        (applyRequest lib resetSupported (settle lib resetSupported {} requests) request).1 =
          settle lib resetSupported {} requests := by
  have hvalid : (settle lib resetSupported {} requests).Valid resetSupported :=
    valid_settle requests (valid_default resetSupported)
  refine ⟨hvalid, ?_⟩
  intro request error h
  exact applyRequest_rejected hvalid h

end EvilConfig

end EvilResp
