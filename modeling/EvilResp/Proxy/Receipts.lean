import EvilResp.Proxy.System

/-!
# What a connection accepted

Of each frame that a connection accepted three things are known while it waits and after it was
answered: its bytes, the settings that it found, and its index once it has one.  A step accepts one
more frame, gives its index to the one that waits, or leaves all of them as they are.

Main results:

- Theorem {lit}`Connection.stepped_receives`: what one step accepts, publishes and counts.
-/

namespace EvilResp

open Library
open EvilResp.Resp

/-- What is known of an accepted frame. -/
structure Receipt where
  request : Bytes
  config : EvilConfig
  index : Option (Nat × Nat)

/-- What an entry tells of its frame. -/
def Entry.receipt (entry : Entry) : Receipt where
  request := entry.request
  config := entry.config
  index := entry.index

namespace Connection

variable {site : Site} {conn next : Connection} {effect : Effect}

/-! ## Commands by name -/

/-- The three control commands are different. -/
theorem isDebug_unique {name other : String} {argv : List String} (h : isDebug name argv = true)
    (hne : toAsciiLowercase name ≠ toAsciiLowercase other) : isDebug other argv = false := by
  rcases argv with _ | ⟨debug, _ | ⟨subcommand, args⟩⟩
  · rfl
  · rfl
  · simp only [isDebug, Bool.and_eq_true, eqIgnoreAsciiCase_iff] at h
    rw [Bool.eq_false_iff]
    intro hother
    simp only [isDebug, Bool.and_eq_true, eqIgnoreAsciiCase_iff] at hother
    exact hne (h.2.symm.trans hother.2)

/-- MONITOR is none of them. -/
theorem not_isDebug_of_isMonitor {name : String} {command : Frame}
    (h : isMonitor command.commandName = true) : isDebug name command.argvLossy = false := by
  cases hargv : command.argvLossy with
  | nil => rfl
  | cons first rest =>
      have hmonitor : eqIgnoreAsciiCase (toAsciiUppercase first) "MONITOR" = true := by
        simpa [isMonitor, Frame.commandName, hargv] using h
      rw [eqIgnoreAsciiCase_iff, toAsciiLowercase_toAsciiUppercase] at hmonitor
      have hdebug : eqIgnoreAsciiCase first "DEBUG" = false := by
        rw [Bool.eq_false_iff, ne_eq, eqIgnoreAsciiCase_iff, hmonitor]
        decide
      cases rest <;> simp [isDebug, hdebug]

/-! ## Receipts -/

/-- The frames that a connection accepted, in order. -/
def receipts (conn : Connection) : List Receipt :=
  (conn.history ++ conn.pending).map Entry.receipt

/-- All frames of a connection that does not wait were answered. -/
theorem receipts_idle (h : conn.pending = []) :
    conn.receipts = conn.history.map Entry.receipt := by
  rw [receipts, h, List.append_nil]

/-- A connection waits with the last frame. -/
theorem receipts_pending {entry : Entry} (h : conn.pending = [entry]) :
    conn.receipts = conn.history.map Entry.receipt ++ [entry.receipt] := by
  rw [receipts, h, List.map_append, List.map_singleton]

/-- Finishing an entry adds no frame to those before it. -/
theorem Finished.receipts {counted : Bool} {base : Connection} {entry final : Entry}
    (h : Finished counted base entry next final) :
    next.receipts = base.history.map Entry.receipt ++ [entry.receipt] := by
  have hsame : final.receipt = entry.receipt := by
    rw [Entry.receipt, h.request, h.settings, h.index, Entry.receipt]
  rw [receipts_idle h.pending, h.history, List.map_append, List.map_singleton, hsame]

/-- Handling a frame accepts it. -/
theorem Handles.receipts {bytes : Bytes} {command : Frame} (hidle : conn.pending = [])
    (h : Handles site conn { request := bytes, config := conn.config } command effect next) :
    next.receipts =
      conn.receipts ++ [{ request := bytes, config := conn.config, index := none }] := by
  rw [receipts_idle hidle]
  cases h with
  | protocol _ hfinal | chaos _ _ hfinal | monitor _ _ _ hfinal | evil _ _ _ _ _ hfinal
  | slots _ _ _ _ _ hfinal => exact hfinal.receipts
  | discovery _ _ _ hfinal | undiscovered _ _ _ hfinal => exact hfinal.receipts
  | monitoring =>
      rename_i script accepted _ _ _
      exact @receipts_pending _ { request := bytes, config := conn.config, accepted } rfl
  | resetting | waits =>
      exact @receipts_pending _ { request := bytes, config := conn.config } rfl

theorem Responds.receipts {entry : Entry} {command : Command}
    (h : Responds site conn entry command next) :
    next.receipts = conn.history.map Entry.receipt ++ [entry.receipt] := by
  cases h with
  | skipped hfinal => exact hfinal.receipts
  | forwarded _ _ hfinal | unavailable _ _ hfinal => exact hfinal.receipts

theorem Responds.config {entry : Entry} {command : Command}
    (h : Responds site conn entry command next) : next.config = conn.config := by
  cases h with
  | skipped hfinal => exact hfinal.config
  | forwarded _ _ hfinal | unavailable _ _ hfinal => exact hfinal.config

/-- What one step accepts: nothing, a frame that is handled, or the index of the one that waits. -/
inductive Receives (site : Site) (conn : Connection) : Effect → Connection → Prop where
  | kept {effect : Effect} {next : Connection} :
      effect.published = none → effect.counted = 0 → next.receipts = conn.receipts →
      next.config = conn.config →
      Receives site conn effect next
  | accepted {bytes : Bytes} {command : Frame} {effect : Effect} {next : Connection} :
      parseFrame bytes = .ok command →
      Handles site conn { request := bytes, config := conn.config } command effect next →
      next.receipts =
        conn.receipts ++ [{ request := bytes, config := conn.config, index := none }] →
      Receives site conn effect next
  | allocated {past : List Receipt} {waiting : Receipt} {command : Frame} {index : Nat × Nat}
      {effect : Effect} {next : Connection} :
      parseFrame waiting.request = .ok command → ¬ IsLocal site command →
      ¬ IsDiscovery site command → waiting.index = none → effect.published = some command →
      effect.counted = 0 → conn.receipts = past ++ [waiting] →
      next.receipts = past ++ [{ waiting with index := some index }] →
      next.config = conn.config →
      Receives site conn effect next

/-- A step that finishes an entry accepts nothing. -/
theorem Finished.receives {counted : Bool} {base : Connection} {entry final : Entry}
    (h : Finished counted base entry next final) (hpending : conn.pending = [entry])
    (hhistory : base.history = conn.history) (hsettings : base.config = conn.config)
    (hpublished : effect.published = none) (hcounted : effect.counted = 0) :
    Receives site conn effect next := by
  apply Receives.kept hpublished hcounted
  · rw [h.receipts, receipts_pending hpending, hhistory]
  · rw [h.config, hsettings]

/-- What one step accepts, publishes and counts. -/
theorem stepped_receives {given : List (Nat × Nat)} {shared shared' : Shared} {input : Input}
    (h : Indexed site given conn)
    (hstep : conn.step site shared input = some (effect, shared', next)) :
    Receives site conn effect next := by
  cases step_cases hstep with
  | refused hphase | hangup hphase =>
      have hidle : conn.pending = [] := by simp [pending, hphase]
      apply Receives.kept rfl rfl
      · rw [receipts_idle hidle]
        exact receipts_idle rfl
      · rfl
  | accepted hphase _ hparse hhandles =>
      exact .accepted hparse hhandles (hhandles.receipts (by simp [pending, hphase]))
  | published hphase =>
      rename_i entry text
      have hpending : conn.pending = [entry] := by simp [pending, hphase]
      rcases publish_cases conn entry text with ⟨script, accepted, hnext⟩ |
        ⟨fingerprints, final, hfinal, -⟩
      · rw [hnext]
        apply Receives.kept rfl rfl
        · rw [receipts_pending hpending]
          exact @receipts_pending _ { entry with accepted := entry.accepted ++ accepted } rfl
        · rfl
      · exact hfinal.receives hpending rfl rfl rfl rfl
  | reset hphase =>
      rename_i entry response
      rcases h.own entry (.inl ⟨response, hphase⟩) with ⟨-, hterminal, -⟩
      rcases finished_finishReset conn (shared.resetEpoch + 1) hterminal response with
        ⟨fingerprints, final, hfinal, -⟩
      exact hfinal.receives (by simp [pending, hphase]) rfl rfl rfl rfl
  | stale hphase hepoch =>
      rename_i entry command
      rcases h.waits entry command hphase with ⟨hfresh, -⟩
      exact (finished_closed conn hfresh).receives (by simp [pending, hphase]) rfl rfl rfl rfl
  | allocated hphase hepoch hresponds =>
      rename_i entry command
      have hpending : conn.pending = [entry] := by simp [pending, hphase]
      rcases h.waits entry command hphase with
        ⟨hfresh, hindex, -, hparse, hlocal, hdiscovery⟩
      have hanswered := hresponds hfresh
      have hwaits : parseFrame entry.receipt.request = .ok command := hparse
      exact .allocated hwaits hlocal hdiscovery hindex rfl rfl
        (receipts_pending hpending) hanswered.receipts hanswered.config

end Connection

end EvilResp
