import EvilResp.Proxy.Disarmed
import EvilResp.Proxy.Isolation

/-!
# Calm connections

Three subcommands and the preset can make a connection change its replies.  A connection that
never used them, or not since it set the temperature zero, is calm: whatever was armed before and
whatever the other connections have armed, its commands get the replies of the upstream.

Main results:

- Theorem {lit}`EvilConfig.Neutral.settle`: other settings commands arm nothing.
- Theorem {lit}`System.calm_untampered`: calm connections are relays, in every run.
-/

namespace EvilResp

open Library
open EvilResp.Resp

/-! ## Neutral settings -/

namespace EvilConfig

/-- Settings whose gates are all closed. -/
structure Neutral (config : EvilConfig) : Prop where
  mode : config.mode = .off
  transport : config.transport.enabled = false
  redirect : config.topologyRedirect = none
  probability : config.topologyProbability = .zero

variable {lib : Externals} {config next : EvilConfig} {result : DebugResult}

theorem neutral_default : Neutral {} where
  mode := rfl
  transport := not_enabled_default
  redirect := rfl
  probability := rfl

/-- The temperature zero closes every gate. -/
theorem neutral_expand {temperature : F64} {seed : UInt64}
    (hzero : temperature.eq .zero = true)
    (h : Chaos.expand config temperature seed = .ok next) : next.Neutral := by
  rcases Chaos.expand_zero hzero h with ⟨hmode, -, -, htransport, hredirect, hprobability⟩
  refine ⟨hmode, ?_, hredirect, hprobability⟩
  rw [htransport]
  exact not_enabled_default

/-- Only three subcommands touch a gate. -/
theorem Neutral.applySubcommand {name : String} {args : List String} (hneutral : config.Neutral)
    (h : config.applySubcommand lib name args = .ok (next, result))
    (hname : name ∉ ["MODE", "TRANSPORT", "TOPOLOGY"]) : next.Neutral := by
  rcases hneutral with ⟨hmode, htransport, hredirect, hprobability⟩
  unfold EvilConfig.applySubcommand at h
  split at h
  case h_1 =>
    cases args with
    | nil => cases h
    | cons seed options =>
        simp only [applySeed] at h
        split_ifs at h
        rcases bind_eq_ok_iff.mp h with ⟨seed, -, hok⟩
        cases hok
        exact ⟨hmode, htransport, hredirect, hprobability⟩
  case h_2 | h_4 | h_11 => exact absurd (by decide) hname
  case h_7 | h_8 | h_9 =>
    rcases bind_eq_ok_iff.mp h with ⟨value, -, hvalue⟩
    rcases bind_eq_ok_iff.mp hvalue with ⟨choice, -, hok⟩
    cases hok
    exact ⟨hmode, htransport, hredirect, hprobability⟩
  case h_12 | h_13 =>
    split_ifs at h
    cases h
    exact ⟨hmode, htransport, hredirect, hprobability⟩
  case h_16 => cases h
  all_goals
    rcases bind_eq_ok_iff.mp h with ⟨value, -, hok⟩
    cases hok
    exact ⟨hmode, htransport, hredirect, hprobability⟩

/-- A settings command that may open a gate. -/
def DebugRequest.arms : DebugRequest → Prop
  | .evil argv => toAsciiUppercase (argv.getD 2 "") ∈ ["MODE", "TRANSPORT", "TOPOLOGY"]
  | .chaos _ _ => True

theorem Neutral.applyRequest {resetSupported : Bool} {request : DebugRequest}
    (h : config.Neutral) (hkeeps : ¬ request.arms) :
    (applyRequest lib resetSupported config request).1.Neutral := by
  cases request with
  | chaos fingerprints argv => exact absurd trivial hkeeps
  | evil argv =>
      show (applyDebugEvil lib config argv resetSupported).1.Neutral
      rcases applyDebugEvil_cases lib config argv resetSupported with
        hsame | ⟨next, result, hsubcommand, hnext | hundone⟩
      · rw [hsame]
        exact h
      · rw [hnext]
        exact h.applySubcommand hsubcommand hkeeps
      · have hneutral := h.applySubcommand hsubcommand hkeeps
        rw [hundone]
        exact ⟨hneutral.mode, h.transport, hneutral.redirect, hneutral.probability⟩

/-- Settings commands that open no gate. -/
theorem Neutral.settle {resetSupported : Bool} {requests : List DebugRequest}
    (h : config.Neutral) (hkeeps : ∀ request ∈ requests, ¬ request.arms) :
    (settle lib resetSupported config requests).Neutral := by
  induction requests generalizing config with
  | nil => exact h
  | cons request requests ih =>
      rcases List.forall_mem_cons.mp hkeeps with ⟨hfirst, hrest⟩
      exact ih (h.applyRequest hfirst) hrest

end EvilConfig

/-! ## Calm connections -/

namespace Connection

variable {site : Site} {config : EvilConfig} {command : Command}

/-- Neutral settings spare every command. -/
theorem spared_of_neutral (h : config.Neutral) : Spared site config command := by
  have htransport : transportEnabled config command = false := by
    simp [transportEnabled, h.transport]
  have hfocused : ∀ context, configuredRedirection site.lib config context = some none := by
    intro context
    rw [configuredRedirection, h.redirect]
  refine ⟨htransport, by simp [mutatesValues, h.mode], by simp [beforePlan, htransport], ?_, ?_,
    by simp [h.mode]⟩
  · unfold preTopology
    split
    · rfl
    · split
      · rfl
      · exact hfocused _
  · intro relayBytes
    unfold relayTopology
    split
    · rfl
    · split
      · rfl
      · split
        · exact hfocused _
        · rw [legacyTopology, maybeMutateTopology_off h.probability]

/-- A frame that may open a gate of its connection. -/
def armsConnection (request : Bytes) : Prop :=
  ∃ settings, settingsRequest request = some settings ∧ settings.arms

/-- A frame that sets the temperature zero, with valid arguments. -/
inductive SetsZero (site : Site) (request : Bytes) : Prop where
  | chaos {command : Frame} {temperature : F64} :
      parseFrame request = .ok command →
      Chaos.ValidArguments site.lib command.argvLossy temperature →
      temperature.eq .zero = true → SetsZero site request

/-- The frames of a connection that is calm after them. -/
inductive Calm (site : Site) : List Bytes → Prop where
  | started : Calm site []
  | zero {requests : List Bytes} {request : Bytes} :
      SetsZero site request → Calm site (requests ++ [request])
  | kept {requests : List Bytes} {request : Bytes} :
      Calm site requests → ¬ armsConnection request → Calm site (requests ++ [request])

/-- A valid preset is recognized as one. -/
theorem isDebugChaos_of_valid {lib : Externals} {argv : List String} {temperature : F64}
    (h : Chaos.ValidArguments lib argv temperature) : isDebugChaos argv = true := by
  cases h with
  | words hdebug hchaos _ _ _ _ => simp [isDebugChaos, isDebug, hdebug, hchaos]

/-- Calm connections have neutral settings. -/
theorem Calm.neutral {requests : List Bytes} (h : Calm site requests) :
    (settingsAfter site requests).Neutral := by
  induction h with
  | started => exact EvilConfig.neutral_default
  | @zero requests request hzero =>
      rcases hzero with ⟨hparse, hvalid, htemperature⟩
      rename_i command temperature
      -- The preset is accepted under any settings.
      have hsame : SameContext (settingsAfter site requests) (settingsAfter site requests) :=
        ⟨rfl, rfl, rfl, rfl, rfl⟩
      rcases Chaos.exists_apply hvalid hsame with ⟨next, hash, seed, hexpand, happly, -⟩
      have hrequest : settingsRequest request = some (.chaos {} command.argvLossy) := by
        simp [settingsRequest, hparse, isDebugChaos_of_valid hvalid]
      have hnext : settingsAfter site (requests ++ [request]) = next := by
        rw [settingsAfter_snoc, hrequest]
        show (applyDebugChaos site.lib (settingsAfter site requests) {} command.argvLossy).1 = next
        rw [applyDebugChaos, happly]
      rw [hnext]
      exact EvilConfig.neutral_expand htemperature hexpand
  | kept _ hkeeps ih =>
      rw [settingsAfter_snoc]
      apply ih.settle
      intro settings hsettings
      rw [Option.mem_toList] at hsettings
      exact fun harms => hkeeps ⟨settings, hsettings, harms⟩

end Connection

namespace System

open Connection

/-- In every run of any number of connections, the commands of a calm connection are relayed:
as long as its client has sent no MODE, TRANSPORT, TOPOLOGY or preset command since it connected,
or since it set the temperature zero, the client gets the reply of the upstream with its cluster
endpoints mapped, in one piece and without a mutation. -/
theorem calm_untampered (actions : List Action) (system : System)
    (h : Machine.run step {} actions = some system) :
    ∀ (i : Nat) site conn, system.connections[i]? = some (site, conn) →
      ∀ past entry later epoch index, conn.history = past ++ entry :: later →
        Calm site (past.map (·.request)) → entry.index = some (epoch, index) →
        ∃ before after, Adds actions i site before entry after ∧ before.history = past ∧
          Untampered site before entry := by
  intro i site conn hconn past entry later epoch index hsplit hcalm hindex
  rcases entry_accounted h hconn hsplit with ⟨before, after, hadds, hpast, haccount⟩
  refine ⟨before, after, hadds, hpast, ?_⟩
  rcases haccount.answered epoch index hindex with ⟨frame, hparse, -, hanswered⟩
  apply hanswered.untampered hparse rfl
  apply spared_of_neutral
  rw [(kept_replayed.each_run h).config_eq hconn hsplit]
  exact hcalm.neutral

/-- PING after a preset that undid what was armed. -/
theorem calm_untampered_ping :
    ∃ system site conn first second entry, Machine.run step {} [.accept .acknowledging [],
      .act 0 (.inline "DEBUG EVIL MODE MUTATE" rfl),
      .act 0 (.inline "DEBUG CHAOS 0" rfl),
      .act 0 (.inline "PING" rfl), .act 0 .turn] = some system ∧
      system.connections[0]? = some (site, conn) ∧ conn.history = [first, second, entry] ∧
      second.config.mode = .mutate ∧ ∃ before, Untampered site before entry := by
  have hrun : (Machine.run step {} [.accept .acknowledging [],
      .act 0 (.inline "DEBUG EVIL MODE MUTATE" rfl),
      .act 0 (.inline "DEBUG CHAOS 0" rfl),
      .act 0 (.inline "PING" rfl), .act 0 .turn]).any
        (fun system => system.connections[0]?.any fun member =>
          member.2.history.map (·.request) = [asBytes "DEBUG EVIL MODE MUTATE\r\n",
            asBytes "DEBUG CHAOS 0\r\n", asBytes "PING\r\n"] ∧
          member.2.history.map (·.index) = [none, none, some (0, 0)] ∧
          member.2.history.map (·.config.mode) = [.off, .mutate, .off]) = true := by
    decide +kernel
  rcases (Option.any_eq_true _ _).mp hrun with ⟨system, hsystem, hstate⟩
  rcases (Option.any_eq_true _ _).mp hstate with ⟨⟨site, conn⟩, hconn, hstate⟩
  rw [decide_eq_true_iff] at hstate
  rcases hstate with ⟨hrequests, hindexes, hmodes⟩
  rcases List.map_eq_cons_iff.mp hrequests with ⟨first, rest, hsplit, -, hrest⟩
  rcases List.map_eq_cons_iff.mp hrest with ⟨second, last, rfl, hpreset, hlast⟩
  rcases List.map_eq_singleton_iff.mp hlast with ⟨entry, rfl, -⟩
  change conn.history = [first, second, entry] at hsplit
  obtain ⟨-, -, hindex⟩ : first.index = none ∧ second.index = none ∧ entry.index = some (0, 0) := by
    simpa [hsplit] using hindexes
  obtain ⟨-, hmode, -⟩ : first.config.mode = .off ∧ second.config.mode = .mutate ∧
      entry.config.mode = .off := by
    simpa [hsplit] using hmodes
  have hvalid : Chaos.ValidArguments site.lib
      ("DEBUG" :: "CHAOS" :: "0" :: optionWords []) .zero := by
    apply Chaos.ValidArguments.words
    · rfl
    · rfl
    · decide +kernel
    · decide +kernel
    · simp
    · simp [RepeatsName]
  have hcalm : Calm site ([first.request] ++ [second.request]) := by
    refine .zero (@SetsZero.chaos site second.request
      (.inline [asBytes "DEBUG", asBytes "CHAOS", asBytes "0"]) .zero ?_ hvalid (by decide))
    rw [hpreset]
    decide +kernel
  rcases calm_untampered _ system hsystem 0 site conn hconn [first, second] entry [] 0 0 hsplit
    hcalm hindex with ⟨before, after, -, -, huntampered⟩
  exact ⟨system, site, conn, first, second, entry, hsystem, hconn, hsplit, hmode, before,
    huntampered⟩

end System

end EvilResp
