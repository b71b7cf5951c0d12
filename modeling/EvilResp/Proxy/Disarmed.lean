import EvilResp.Config.Preset
import EvilResp.Proxy.Relay

/-!
# Temperature zero

The lowest temperature of the preset disarms a configuration.  None of its settings selects a
fault, for no command and no outcome of the random streams, so the reply of the upstream is
planned as it is, whatever was armed before.

Main results:

- Theorem {lit}`Chaos.disarmed_of_zero`: the temperature zero disarms.
- Theorem {lit}`preset_historyFree`: a preset does not depend on what was configured before.
-/

namespace EvilResp

open Library
open EvilResp.Resp

/-- Settings that select no fault, at any command, reply and random stream. -/
structure Disarmed (config : EvilConfig) : Prop where
  /-- No focused redirect, before or after the command is forwarded. -/
  focused : ∀ lib context, configuredRedirection lib config context = some none
  /-- No legacy redirect, changed or made up. -/
  legacy : ∀ lib commandIndex commandHash command upstreamBytes localSlots,
    maybeMutateTopology lib config commandIndex commandHash command upstreamBytes localSlots =
      .ok (some none)
  /-- No connection fault before the command is forwarded. -/
  before : ∀ lib index hash,
    config.transport.beforePlan lib config.seed index hash = some none
  /-- No connection fault later. -/
  fault : ∀ lib index hash len,
    config.transport.fault.plan lib config.transport.probability config.seed index hash len =
      some none
  /-- The plain plan, with the reply as one chunk. -/
  delivery : ∀ lib index hash replyHash len,
    config.transport.plan lib config.seed index hash replyHash len = some (.plain len)
  /-- No fault of a length. -/
  framing : ∀ f, mutateLength config f = .done none
  /-- No edit of a transaction. -/
  exec : ∀ lib index hash upstreamHash f,
    ExecConfig.mutateReply lib config index hash upstreamHash f = some none
  /-- No change of a value. -/
  values : ∀ lib index name hash upstreamHash f,
    mutateCommandReply lib config index name hash upstreamHash f =
      some { bytes := f.encode, mutations := [] }
  /-- No generated reply instead of the upstream's. -/
  forwards : config.mode ≠ .random

/-- Every ordinary command is forwarded, and its reply is planned as it is. -/
structure Connection.PlainRelay (config : EvilConfig) : Prop where
  forward : ∀ site conn entry command, conn.config = config →
    Connection.ordinary site conn entry command = conn.forward site entry command
  response : ∀ site command execCommands reply relayBytes,
    normalizeClusterRedirection site.lib site.localSlots site.redirectionMap reply =
        .ok relayBytes →
      Connection.relayResponse site config command execCommands reply = some {
        upstreamBytes := some reply
        reply := { bytes := relayBytes, mutations := [] }
        seedHash := "" }
  plan : ∀ site command response,
    Connection.deliveryPlan site config command response =
      some (.plain response.reply.bytes.length)

variable {config : EvilConfig}

theorem not_enabled_default : ({} : TransportConfig).enabled = false :=
  rfl

/-! ## Settings that select nothing -/

theorem mutateReply_off (hmode : config.mode = .off) (lib : Externals) (index : UInt64)
    (hash upstreamHash : String) (f : Frame) :
    mutateReply lib config index hash upstreamHash f =
      some { bytes := f.encode, mutations := [] } := by
  have hinactive : config.mode ≠ .mutate ∧ config.mode ≠ .overflow := by
    simp [hmode]
  rw [mutateReply, mutate, if_pos hinactive]
  rfl

theorem execMutateReply_off (hexec : config.exec = {}) (lib : Externals) (index : UInt64)
    (hash upstreamHash : String) (f : Frame) :
    ExecConfig.mutateReply lib config index hash upstreamHash f = some none := by
  have hnone : ExecConfig.editable config f = none := by
    unfold ExecConfig.editable
    split
    · exact if_pos (.inr (.inl (by rw [hexec])))
    · rfl
  rw [ExecConfig.mutateReply, hnone]

theorem mutateCommandReply_off (hmode : config.mode = .off) (hexec : config.exec = {})
    (lib : Externals) (index : UInt64) (name : Option String) (hash upstreamHash : String)
    (f : Frame) :
    mutateCommandReply lib config index name hash upstreamHash f =
      some { bytes := f.encode, mutations := [] } := by
  rw [mutateCommandReply, execMutateReply_off hexec, mutateReply_off hmode]
  split <;> rfl

theorem maybeMutateTopology_off (hprobability : config.topologyProbability = .zero)
    (lib : Externals) (commandIndex : UInt64) (commandHash : String) (command : Frame)
    (upstreamBytes : Option Bytes) (localSlots : Frame) :
    maybeMutateTopology lib config commandIndex commandHash command upstreamBytes localSlots =
      .ok (some none) := by
  have hzero : F64.zero.le .zero = true := by decide
  rw [maybeMutateTopology, hprobability, if_pos (.inl hzero)]

/-- Settings at their neutral values disarm a configuration. -/
theorem disarmed_of_neutral (hmode : config.mode = .off) (hframing : config.framing = .off)
    (hexec : config.exec = {}) (htransport : config.transport = {})
    (hredirect : config.topologyRedirect = none)
    (hprobability : config.topologyProbability = .zero) : Disarmed config where
  focused lib context := by
    rw [configuredRedirection, hredirect]
  legacy := maybeMutateTopology_off hprobability
  before lib index hash := by
    rw [htransport]
    rfl
  fault lib index hash len := by
    rw [htransport]
    exact if_pos (.inl rfl)
  delivery lib index hash replyHash len := by
    apply TransportConfig.plan_disabled
    rw [htransport, not_enabled_default]
  framing f := by
    rw [mutateLength, hframing]
    rfl
  exec := execMutateReply_off hexec
  values := mutateCommandReply_off hmode hexec
  forwards := by
    simp [hmode]

namespace Connection

/-- Disarmed settings relay. -/
theorem plainRelay_of_neutral (hmode : config.mode = .off) (htransport : config.transport = {})
    (h : Disarmed config) : PlainRelay config := by
  have hdelivery : ∀ command, transportEnabled config command = false := by
    intro command
    rw [transportEnabled, htransport, not_enabled_default, Bool.and_false]
  have hvalues : ∀ command, mutatesValues config command = false := by
    intro command
    simp [mutatesValues, hmode]
  constructor
  case forward =>
    rintro site conn entry command rfl
    have hpre : preTopology site conn.config command = some none := by
      unfold preTopology
      split
      · rfl
      · split
        · rfl
        · exact h.focused _ _
    have hbefore : beforePlan site conn.config command = some none := by
      rw [beforePlan, hdelivery]
      rfl
    have hforwards : ¬ (conn.config.mode = .random ∧ command.shouldMutate = true) := fun hrandom =>
      h.forwards hrandom.1
    simp only [ordinary, hpre, hbefore, if_neg hforwards]
  case response =>
    intro site command execCommands reply relayBytes hrelay
    refine relayResponse_of_gates hrelay ?_ (hvalues command) (hdelivery command) execCommands
    unfold relayTopology
    split
    · rfl
    · split
      · rfl
      · split
        · exact h.focused _ _
        · rw [legacyTopology, h.legacy]
  case plan =>
    intro site command response
    rw [deliveryPlan, hdelivery]
    rfl

end Connection

/-- The temperature zero disarms, and all that is left is the relay. -/
theorem Chaos.disarmed_of_zero {temperature : F64} (hzero : temperature.eq .zero = true)
    {next : EvilConfig} {seed : UInt64} (h : expand config temperature seed = .ok next) :
    Disarmed next ∧ Connection.PlainRelay next := by
  obtain ⟨hmode, hframing, hexec, htransport, hredirect, hprobability⟩ := expand_zero hzero h
  have hdisarmed := disarmed_of_neutral hmode hframing hexec htransport hredirect hprobability
  exact ⟨hdisarmed, Connection.plainRelay_of_neutral hmode htransport hdisarmed⟩

/-- A preset with valid arguments is accepted under every configuration, and configurations that
agree on the filters, the canonicalization, the protocol of the generator and the seed become
equal.  The temperature zero disarms them. -/
theorem preset_historyFree (lib : Externals) {config other : EvilConfig} {argv : List String}
    {temperature : F64} (hargv : Chaos.ValidArguments lib argv temperature)
    (hcontext : SameContext config other) :
    ∃ next hash, Chaos.apply lib config argv = .ok (next, hash) ∧
      Chaos.apply lib other argv = .ok (next, hash) ∧
      (temperature.eq .zero = true → Disarmed next ∧ Connection.PlainRelay next) := by
  obtain ⟨next, hash, seed, hexpand, happly, hother⟩ := Chaos.exists_apply hargv hcontext
  exact ⟨next, hash, happly, hother, fun hzero => Chaos.disarmed_of_zero hzero hexpand⟩

/-- Manual settings of every kind, against the initial settings. -/
theorem preset_historyFree_armed :
    ∃ next hash,
      Chaos.apply default {} ["debug", "Chaos", "0", "seed", "7"] = .ok (next, hash) ∧
      Chaos.apply default
        { topologyProbability := .hundred, topologyRedirect := some {}, exec := { action := .swap },
          transport := { fault := { action := .stall, point := .before } }, mode := .overflow,
          framing := .length {}, depth := .any, strategy := .replace }
        ["debug", "Chaos", "0", "seed", "7"] = .ok (next, hash) ∧
      Disarmed next ∧ Connection.PlainRelay next := by
  have hoption : Chaos.ValidOption default ("seed", "7") := .seed rfl rfl
  have hargv : Chaos.ValidArguments default
      ("debug" :: "Chaos" :: "0" :: optionWords [("seed", "7")]) .zero := by
    apply Chaos.ValidArguments.words
    · rfl
    · rfl
    · decide +kernel
    · decide +kernel
    · simp [hoption]
    · simp [RepeatsName]
  obtain ⟨next, hash, happly, hother, hdisarmed⟩ :=
    preset_historyFree default hargv ⟨rfl, rfl, rfl, rfl, rfl⟩
  exact ⟨next, hash, happly, hother, hdisarmed (by decide)⟩

end EvilResp
