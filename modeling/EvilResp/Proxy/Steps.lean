import EvilResp.Proxy.Connection

/-!
# What a step can do

Every way through the loop either waits for the shared counters, starts a monitor, or
finishes one entry of the history.  A finished entry is written once, through a counted
or an uncounted writer, and the connection ends where the delivery did.

Main results:

- Theorem {lit}`Connection.handles`: what is done for an accepted frame.
- Theorem {lit}`Connection.responds`: what is done for an ordinary command.
- Theorem {lit}`Connection.step_cases`: what one step does.
-/

namespace EvilResp

open Library
open EvilResp.Resp

/-- Nothing was written for the entry yet. -/
structure Entry.Fresh (entry : Entry) : Prop where
  accepted : entry.accepted = []
  terminal : entry.terminal = false

namespace Connection

/-! ## Finished entries -/

/-- The entry of a frame was finished, by a counted or an uncounted reply. -/
structure Finished (counted : Bool) (conn : Connection) (entry : Entry) (next : Connection)
    (final : Entry) : Prop where
  history : next.history = conn.history ++ [final]
  epoch : next.epoch = conn.epoch
  config : next.config = conn.config
  transaction : next.transaction = conn.transaction
  upstream : next.upstream = conn.upstream
  fingerprints : next.fingerprints =
    if counted then conn.fingerprints.update .out final.accepted else conn.fingerprints
  phase : next.phase = .reading ∨ next.phase = .closed
  terminal : final.terminal = true → next.phase = .closed
  request : final.request = entry.request
  settings : final.config = entry.config
  index : final.index = entry.index
  forwarded : final.forwarded = entry.forwarded
  upstreamReply : final.upstreamReply = entry.upstreamReply
  execCommands : final.execCommands = entry.execCommands

/-- The parts of a connection that one reply changes. -/
theorem finished_finish {counted : Bool} (conn : Connection) (entry : Entry)
    (script : List WriteEvent) {fingerprints : ProtocolFingerprints} (accepted : Bytes)
    (terminal : Bool) (plan : Option DeliveryPlan) (record : Option ReproRecord) {phase : Phase}
    (hfed : fingerprints =
      if counted then conn.fingerprints.update .out accepted else conn.fingerprints)
    (hphase : phase = .reading ∨ phase = .closed) (hterminal : terminal = true → phase = .closed) :
    Finished counted conn entry
      ({ conn with script, fingerprints }.finish
        { entry with accepted, terminal, plan, record } phase)
      { entry with accepted, terminal, plan, record } where
  history := rfl
  epoch := rfl
  config := rfl
  transaction := rfl
  upstream := rfl
  fingerprints := hfed
  phase := hphase
  terminal := hterminal
  request := rfl
  settings := rfl
  index := rfl
  forwarded := rfl
  upstreamReply := rfl
  execCommands := rfl

/-- A frame that gets no reply ends the connection. -/
theorem finished_closed (conn : Connection) {entry : Entry} (hentry : entry.Fresh) :
    Finished true conn entry (conn.finish entry .closed) entry := by
  have hfed : conn.fingerprints = conn.fingerprints.update .out entry.accepted := by
    rw [hentry.accepted, update_nil]
  exact finished_finish conn entry conn.script entry.accepted entry.terminal entry.plan
    entry.record hfed (.inr rfl) fun _ => rfl

theorem finished_controlReply (conn : Connection) {entry : Entry} (hentry : entry.Fresh)
    (bytes : Bytes) : ∃ final, Finished false conn entry (conn.controlReply entry bytes) final := by
  unfold controlReply
  rcases hwrite : writeAll conn.script bytes with ⟨script, accepted, error | done⟩
  · exact ⟨_, finished_finish conn entry script accepted true entry.plan entry.record rfl
      (.inr rfl) fun _ => rfl⟩
  · refine ⟨_, finished_finish conn entry script accepted entry.terminal entry.plan entry.record
      rfl (.inl rfl) fun h => ?_⟩
    rw [hentry.terminal] at h
    cases h

theorem finished_countedReply (conn : Connection) {entry : Entry} (hentry : entry.Fresh)
    (bytes : Bytes) : ∃ final, Finished true conn entry (conn.countedReply entry bytes) final := by
  unfold countedReply
  have hfed := (writeCounted_counts conn.script conn.fingerprints bytes).1
  dsimp only
  split
  · refine ⟨_, finished_finish conn entry _ _ entry.terminal entry.plan entry.record hfed
      (.inl rfl) fun h => ?_⟩
    rw [hentry.terminal] at h
    cases h
  · exact ⟨_, finished_finish conn entry _ _ true entry.plan entry.record hfed (.inr rfl)
      fun _ => rfl⟩

/-- A monitor goes on, or ends with a line that could not be written. -/
theorem publish_cases (conn : Connection) (entry : Entry) (text : String) :
    (∃ script accepted, conn.publish entry text =
      { conn with
        script
        fingerprints := conn.fingerprints.update .out accepted
        phase := .monitoring { entry with accepted := entry.accepted ++ accepted } }) ∨
    ∃ fingerprints final,
      Finished false { conn with fingerprints } entry (conn.publish entry text) final ∧
      (conn.publish entry text).phase = .closed := by
  have hfed := (writeCounted_counts conn.script conn.fingerprints
    (Frame.simpleString text).encode).1
  unfold publish
  dsimp only
  rw [hfed]
  split
  · exact .inl ⟨_, _, rfl⟩
  · exact .inr ⟨conn.fingerprints.update .out _, _,
      finished_finish { conn with fingerprints := conn.fingerprints.update .out _ } entry _ _ true
        entry.plan entry.record rfl (.inr rfl) fun _ => rfl, rfl⟩

/-- After a reset was answered both fingerprints are empty. -/
theorem finished_finishReset (conn : Connection) (epoch : Nat) {entry : Entry}
    (hentry : entry.terminal = false) (response : Bytes) :
    ∃ fingerprints final,
      Finished false { conn with epoch, fingerprints } entry (conn.finishReset epoch entry response)
        final ∧
      ((conn.finishReset epoch entry response).phase = .reading → fingerprints = {}) := by
  unfold finishReset
  rcases hwrite : writeAll conn.script response with ⟨script, accepted, error | done⟩
  · have hfinal : Finished false { conn with epoch } entry
        ({ conn with epoch, script }.finish { entry with accepted, terminal := true } .closed)
        { entry with accepted, terminal := true } :=
      finished_finish { conn with epoch } entry script accepted true entry.plan entry.record rfl
        (.inr rfl) fun _ => rfl
    refine ⟨conn.fingerprints, _, by simpa only [hwrite] using hfinal, fun hreading => ?_⟩
    simp [hwrite, finish] at hreading
  · have hfinal : Finished false { conn with epoch, fingerprints := {} } entry
        ({ conn with epoch, script, fingerprints := {} }.finish { entry with accepted } .reading)
        { entry with accepted } := by
      apply finished_finish { conn with epoch, fingerprints := {} } entry script accepted
        entry.terminal entry.plan entry.record rfl (.inl rfl)
      intro h
      rw [hentry] at h
      cases h
    exact ⟨{}, _, by simpa only [hwrite] using hfinal, fun _ => rfl⟩

theorem finished_deliverResponse (site : Site) (conn : Connection) {entry : Entry}
    (hentry : entry.Fresh) (command : Command) (response : Response) (plan : DeliveryPlan) :
    ∃ final, Finished true conn entry (conn.deliverResponse site entry command response plan)
      final := by
  unfold deliverResponse
  dsimp only
  split
  · exact ⟨entry, finished_closed conn hentry⟩
  · rename_i delivery hdelivery
    have hfed := deliver_counts hdelivery
    refine ⟨_, finished_finish conn entry delivery.script _ _ _ _ hfed ?_ ?_⟩
    · split_ifs
      · exact .inr rfl
      · exact .inl rfl
    · intro hterminal
      rw [if_pos hterminal]

theorem finished_respond (site : Site) (conn : Connection) {entry : Entry} (hentry : entry.Fresh)
    (command : Command) (response : Option Response) :
    ∃ final, Finished true conn entry (conn.respond site entry command response) final := by
  unfold respond
  split
  · exact ⟨entry, finished_closed conn hentry⟩
  · split
    · exact ⟨entry, finished_closed conn hentry⟩
    · exact finished_deliverResponse site conn hentry command _ _

/-! ## Commands -/

/-- Commands that the proxy answers itself. -/
def IsLocal (site : Site) (command : Frame) : Prop :=
  isDebugProtocol command.argvLossy = true ∨ isDebugChaos command.argvLossy = true ∨
    isMonitor command.commandName = true ∨ isDebugEvil command.argvLossy = true ∨
    site.localSlots.isSome = true ∧ isClusterSlots command.argvLossy = true

/-- Topology queries that are answered by the upstream, outside the ordinary path. -/
def IsDiscovery (site : Site) (command : Frame) : Prop :=
  site.localSlots.isSome = true ∧
    (isClusterShards command.argvLossy = true ∨ isClusterNodes command.argvLossy = true)

instance (site : Site) (command : Frame) : Decidable (IsLocal site command) :=
  inferInstanceAs (Decidable (_ ∨ _ ∨ _ ∨ _ ∨ _))

instance (site : Site) (command : Frame) : Decidable (IsDiscovery site command) :=
  inferInstanceAs (Decidable (_ ∧ _))

/-- What is done for an accepted frame, and the effect of it. -/
inductive Handles (site : Site) (conn : Connection) (entry : Entry) (command : Frame) :
    Effect → Connection → Prop where
  | protocol {next : Connection} {final : Entry} :
      isDebugProtocol command.argvLossy = true → Finished false conn entry next final →
      Handles site conn entry command {} next
  | chaos {next : Connection} {final : Entry} :
      isDebugProtocol command.argvLossy = false → isDebugChaos command.argvLossy = true →
      Finished false
        { conn with
          config := (applyDebugChaos site.lib conn.config conn.fingerprints command.argvLossy).1 }
        entry next final →
      Handles site conn entry command {
        published := some command
        counted := Stats.countDebugChaos site.lib conn.config command.argvLossy } next
  | monitor {next : Connection} {final : Entry} :
      isDebugProtocol command.argvLossy = false → isDebugChaos command.argvLossy = false →
      isMonitor command.commandName = true →
      Finished true (conn.heard entry.request) entry next final →
      Handles site conn entry command {} next
  | monitoring {script : List WriteEvent} {accepted : Bytes} :
      isDebugProtocol command.argvLossy = false → isDebugChaos command.argvLossy = false →
      isMonitor command.commandName = true →
      Handles site conn entry command {}
        { conn with
          script
          fingerprints := (conn.heard entry.request).fingerprints.update .out accepted
          phase := .monitoring { entry with accepted } }
  | resetting :
      isDebugProtocol command.argvLossy = false → isDebugChaos command.argvLossy = false →
      isMonitor command.commandName = false → isDebugEvil command.argvLossy = true →
      (applyDebugEvil site.lib conn.config command.argvLossy site.resetSupported).2.action =
        .resetIncrementingState →
      Handles site conn entry command {
        published := some command
        counted := Stats.countDebugEvil site.lib conn.config command.argvLossy
          site.resetSupported }
        { conn.heard entry.request with
          config := (applyDebugEvil site.lib conn.config command.argvLossy site.resetSupported).1
          phase := .resetting entry (applyDebugEvil site.lib conn.config command.argvLossy
            site.resetSupported).2.frame.encode }
  | evil {next : Connection} {final : Entry} :
      isDebugProtocol command.argvLossy = false → isDebugChaos command.argvLossy = false →
      isMonitor command.commandName = false → isDebugEvil command.argvLossy = true →
      (applyDebugEvil site.lib conn.config command.argvLossy site.resetSupported).2.action ≠
        .resetIncrementingState →
      Finished true
        { conn.heard entry.request with
          config := (applyDebugEvil site.lib conn.config command.argvLossy site.resetSupported).1 }
        entry next final →
      Handles site conn entry command {
        published := some command
        counted := Stats.countDebugEvil site.lib conn.config command.argvLossy
          site.resetSupported } next
  | slots {next : Connection} {final : Entry} :
      isDebugProtocol command.argvLossy = false → isDebugChaos command.argvLossy = false →
      isMonitor command.commandName = false → isDebugEvil command.argvLossy = false →
      IsLocal site command →
      Finished true (conn.heard entry.request) entry next final →
      Handles site conn entry command { published := some command } next
  | discovery {upstream : UpstreamConnection} {reply : Bytes} {next : Connection}
      {final : Entry} :
      ¬ IsLocal site command → IsDiscovery site command →
      conn.upstream.exchange site.network entry.request command.argvLossy = (upstream, .ok reply) →
      Finished true { conn.heard entry.request with upstream }
        { entry with forwarded := conn.wrote upstream, upstreamReply := some reply } next
        final →
      Handles site conn entry command { published := some command } next
  | undiscovered {upstream : UpstreamConnection} {error : AppError} {next : Connection}
      {final : Entry} :
      ¬ IsLocal site command → IsDiscovery site command →
      conn.upstream.exchange site.network entry.request command.argvLossy =
        (upstream, .error error) →
      Finished true { conn.heard entry.request with upstream, transaction := {} }
        { entry with forwarded := conn.wrote upstream } next final →
      Handles site conn entry command { published := some command } next
  | waits :
      ¬ IsLocal site command → ¬ IsDiscovery site command →
      Handles site conn entry command {}
        { conn.heard entry.request with
          phase := .allocating entry command }

variable {site : Site} {conn : Connection} {entry : Entry} {command : Frame}

theorem handles_startMonitor (hentry : entry.Fresh)
    (hprotocol : isDebugProtocol command.argvLossy = false)
    (hchaos : isDebugChaos command.argvLossy = false)
    (hmonitor : isMonitor command.commandName = true) :
    Handles site conn entry command {}
      ((conn.heard entry.request).startMonitor entry command.argvLossy) := by
  unfold startMonitor
  split_ifs
  · rcases finished_countedReply (conn.heard entry.request) hentry monitorArityError.encode with
      ⟨final, hfinal⟩
    exact .monitor hprotocol hchaos hmonitor hfinal
  · have hfed := (writeCounted_counts (conn.heard entry.request).script
      (conn.heard entry.request).fingerprints (Frame.simpleString "OK").encode).1
    dsimp only
    split
    · rw [hfed]
      exact .monitoring hprotocol hchaos hmonitor
    · exact .monitor hprotocol hchaos hmonitor (finished_finish (conn.heard entry.request) entry
        _ _ true entry.plan entry.record hfed (.inr rfl) fun _ => rfl)

theorem handles_debugEvil (hentry : entry.Fresh)
    (hprotocol : isDebugProtocol command.argvLossy = false)
    (hchaos : isDebugChaos command.argvLossy = false)
    (hmonitor : isMonitor command.commandName = false)
    (hevil : isDebugEvil command.argvLossy = true) :
    Handles site conn entry command
      ((conn.heard entry.request).debugEvil site entry command command.argvLossy).1
      ((conn.heard entry.request).debugEvil site entry command command.argvLossy).2 := by
  unfold debugEvil
  dsimp only
  split_ifs with hreset
  · exact .resetting hprotocol hchaos hmonitor hevil hreset
  · rcases finished_countedReply { conn.heard entry.request with
      config := (applyDebugEvil site.lib conn.config command.argvLossy site.resetSupported).1 }
      hentry _ with ⟨final, hfinal⟩
    exact .evil hprotocol hchaos hmonitor hevil hreset hfinal

theorem handles_discover (hentry : entry.Fresh) (hlocal : ¬ IsLocal site command)
    (hdiscovery : IsDiscovery site command) :
    Handles site conn entry command { published := some command }
      ((conn.heard entry.request).discover site entry command.argvLossy) := by
  have hsame : (conn.heard entry.request).upstream = conn.upstream := rfl
  unfold discover
  dsimp only
  rw [hsame]
  rcases hexchange : conn.upstream.exchange site.network entry.request command.argvLossy with
    ⟨upstream, error | reply⟩
  · have hfresh : Entry.Fresh { entry with forwarded := conn.wrote upstream } :=
      ⟨hentry.accepted, hentry.terminal⟩
    rcases finished_countedReply { conn.heard entry.request with upstream, transaction := {} }
      hfresh unavailableReply with ⟨final, hfinal⟩
    exact .undiscovered hlocal hdiscovery hexchange hfinal
  · have hfresh : Entry.Fresh { entry with
        forwarded := conn.wrote upstream, upstreamReply := some reply } :=
      ⟨hentry.accepted, hentry.terminal⟩
    dsimp only
    split
    · exact .discovery hlocal hdiscovery hexchange (finished_closed _ hfresh)
    · rcases finished_countedReply { conn.heard entry.request with upstream } hfresh _ with
        ⟨final, hfinal⟩
      exact .discovery hlocal hdiscovery hexchange hfinal

/-- What is done for an accepted frame. -/
theorem handles (hentry : entry.Fresh) :
    Handles site conn entry command (conn.handle site entry command).1
      (conn.handle site entry command).2 := by
  unfold handle
  dsimp only
  cases hprotocol : isDebugProtocol command.argvLossy with
  | true =>
      rcases finished_controlReply conn hentry
        (applyDebugProtocol site.lib conn.fingerprints command.argvLossy).encode with
        ⟨final, hfinal⟩
      exact .protocol hprotocol hfinal
  | false =>
  cases hchaos : isDebugChaos command.argvLossy with
  | true =>
      rcases finished_controlReply { conn with
        config := (applyDebugChaos site.lib conn.config conn.fingerprints command.argvLossy).1 }
        hentry (applyDebugChaos site.lib conn.config conn.fingerprints command.argvLossy).2.encode
        with ⟨final, hfinal⟩
      exact .chaos hprotocol hchaos hfinal
  | false =>
  cases hmonitor : isMonitor command.commandName with
  | true => exact handles_startMonitor hentry hprotocol hchaos hmonitor
  | false =>
  cases hevil : isDebugEvil command.argvLossy with
  | true => exact handles_debugEvil hentry hprotocol hchaos hmonitor hevil
  | false =>
  simp only [Bool.false_eq_true, if_false]
  unfold dispatch
  cases hslots : site.localSlots with
  | none =>
      refine .waits ?_ ?_
      · simp [IsLocal, hprotocol, hchaos, hmonitor, hevil, hslots]
      · simp [IsDiscovery, hslots]
  | some slots =>
      dsimp only
      split_ifs with hcluster hquery
      · rcases finished_countedReply (conn.heard entry.request) hentry slots.encode with
          ⟨final, hfinal⟩
        exact .slots hprotocol hchaos hmonitor hevil (by simp [IsLocal, hslots, hcluster]) hfinal
      · apply handles_discover hentry
        · simp [IsLocal, hprotocol, hchaos, hmonitor, hevil, hcluster]
        · exact ⟨by simp [hslots], hquery⟩
      · refine .waits ?_ ?_
        · simp [IsLocal, hprotocol, hchaos, hmonitor, hevil, hcluster]
        · exact fun h => hquery h.2

/-- Handling a frame takes no index. -/
theorem Handles.index {effect : Effect} {next : Connection}
    (h : Handles site conn entry command effect next) : effect.index = none := by
  cases h <;> rfl

/-- Handling a frame keeps the epoch. -/
theorem Handles.epoch {effect : Effect} {next : Connection}
    (h : Handles site conn entry command effect next) : next.epoch = conn.epoch := by
  cases h with
  | protocol _ hfinal | chaos _ _ hfinal | monitor _ _ _ hfinal | evil _ _ _ _ _ hfinal
  | slots _ _ _ _ _ hfinal => exact hfinal.epoch
  | discovery _ _ _ hfinal | undiscovered _ _ _ hfinal => exact hfinal.epoch
  | monitoring | resetting | waits => rfl

/-- Handling a frame finishes no entry but those of commands that consume no index. -/
theorem Handles.added {effect : Effect} {next : Connection}
    (h : Handles site conn entry command effect next) :
    next.history = conn.history ∨ ∃ final, next.history = conn.history ++ [final] ∧
      final.request = entry.request ∧ (IsLocal site command ∨ IsDiscovery site command) := by
  cases h with
  | protocol hprotocol hfinal =>
      exact .inr ⟨_, hfinal.history, hfinal.request, .inl (.inl hprotocol)⟩
  | chaos _ hchaos hfinal =>
      exact .inr ⟨_, hfinal.history, hfinal.request, .inl (.inr (.inl hchaos))⟩
  | monitor _ _ hmonitor hfinal =>
      exact .inr ⟨_, hfinal.history, hfinal.request, .inl (.inr (.inr (.inl hmonitor)))⟩
  | evil _ _ _ hevil _ hfinal =>
      exact .inr ⟨_, hfinal.history, hfinal.request, .inl (.inr (.inr (.inr (.inl hevil))))⟩
  | slots _ _ _ _ hlocal hfinal => exact .inr ⟨_, hfinal.history, hfinal.request, .inl hlocal⟩
  | discovery _ hdiscovery _ hfinal | undiscovered _ hdiscovery _ hfinal =>
      exact .inr ⟨_, hfinal.history, hfinal.request, .inr hdiscovery⟩
  | monitoring | resetting | waits => exact .inl rfl

/-! ## Ordinary commands -/

/-- Whether a command is answered without the upstream: a connection fault or a redirect
was selected before forwarding, or the reply is generated. -/
def Skips (site : Site) (config : EvilConfig) (command : Command) : Prop :=
  (∃ plan, beforePlan site config command = some (some plan)) ∨
    (∃ mutated, preTopology site config command = some (some mutated)) ∨
    (config.mode = .random ∧ command.shouldMutate = true)

/-- What is done for an ordinary command. -/
inductive Responds (site : Site) (conn : Connection) (entry : Entry) (command : Command) :
    Connection → Prop where
  | skipped {next : Connection} {final : Entry} :
      Finished true conn entry next final → Responds site conn entry command next
  | forwarded {upstream : UpstreamConnection} {reply : Bytes} {next : Connection}
      {final : Entry} :
      ¬ Skips site conn.config command →
      conn.upstream.exchange site.network entry.request command.frame.argvLossy =
        (upstream, .ok reply) →
      Finished true
        { conn with
          upstream
          transaction := (conn.transaction.observe command.frame.argvLossy reply).1 }
        { entry with
          forwarded := conn.wrote upstream
          upstreamReply := some reply
          execCommands := (conn.transaction.observe command.frame.argvLossy reply).2 }
        next final →
      Responds site conn entry command next
  | unavailable {upstream : UpstreamConnection} {error : AppError} {next : Connection}
      {final : Entry} :
      ¬ Skips site conn.config command →
      conn.upstream.exchange site.network entry.request command.frame.argvLossy =
        (upstream, .error error) →
      Finished true { conn with upstream, transaction := {} }
        { entry with forwarded := conn.wrote upstream } next final →
      Responds site conn entry command next

theorem responds_forward {command : Command} (hentry : entry.Fresh)
    (hskips : ¬ Skips site conn.config command) :
    Responds site conn entry command (conn.forward site entry command) := by
  unfold forward
  dsimp only
  rcases hexchange : conn.upstream.exchange site.network entry.request command.frame.argvLossy with
    ⟨upstream, error | reply⟩
  · have hfresh : Entry.Fresh { entry with forwarded := conn.wrote upstream } :=
      ⟨hentry.accepted, hentry.terminal⟩
    rcases finished_countedReply { conn with upstream, transaction := {} } hfresh unavailableReply
      with ⟨final, hfinal⟩
    exact .unavailable hskips hexchange hfinal
  · have hfresh : Entry.Fresh { entry with
        forwarded := conn.wrote upstream
        upstreamReply := some reply
        execCommands := (conn.transaction.observe command.frame.argvLossy reply).2 } :=
      ⟨hentry.accepted, hentry.terminal⟩
    rcases finished_respond site { conn with
        upstream
        transaction := (conn.transaction.observe command.frame.argvLossy reply).1 } hfresh command
      (relayResponse site conn.config command
        (conn.transaction.observe command.frame.argvLossy reply).2 reply) with ⟨final, hfinal⟩
    exact .forwarded hskips hexchange hfinal

/-- What is done for an ordinary command. -/
theorem responds {command : Command} (hentry : entry.Fresh) :
    Responds site conn entry command (conn.ordinary site entry command) := by
  unfold ordinary
  cases hpre : preTopology site conn.config command with
  | none => exact .skipped (finished_closed conn hentry)
  | some pre =>
  cases hbefore : beforePlan site conn.config command with
  | none => exact .skipped (finished_closed conn hentry)
  | some before =>
  cases before with
  | some plan =>
      rcases finished_deliverResponse site conn hentry command
        { upstreamBytes := none, reply := { bytes := [], mutations := [] }, seedHash := "" } plan
        with ⟨final, hfinal⟩
      exact .skipped hfinal
  | none =>
  dsimp only
  split_ifs with hrandom
  · rcases finished_respond site conn hentry command
      (randomResponse site conn.config command pre) with ⟨final, hfinal⟩
    exact .skipped hfinal
  · cases pre with
    | some mutated =>
        rcases finished_respond site conn hentry command (mutateRelayed site conn.config command
          none none (baseReply (some mutated) [])) with ⟨final, hfinal⟩
        exact .skipped hfinal
    | none =>
        apply responds_forward hentry
        simpa [Skips, hpre, hbefore] using hrandom

theorem Responds.epoch {command : Command} {next : Connection}
    (h : Responds site conn entry command next) : next.epoch = conn.epoch := by
  cases h with
  | skipped hfinal => exact hfinal.epoch
  | forwarded _ _ hfinal | unavailable _ _ hfinal => exact hfinal.epoch

/-- Responding to an ordinary command finishes its entry. -/
theorem Responds.added {command : Command} {next : Connection}
    (h : Responds site conn entry command next) :
    ∃ final, next.history = conn.history ++ [final] ∧ final.request = entry.request ∧
      final.index = entry.index := by
  cases h with
  | skipped hfinal => exact ⟨_, hfinal.history, hfinal.request, hfinal.index⟩
  | forwarded _ _ hfinal | unavailable _ _ hfinal =>
      exact ⟨_, hfinal.history, hfinal.request, hfinal.index⟩

/-! ## Steps -/

/-- What one step does. -/
inductive Steps (site : Site) (shared : Shared) (conn : Connection) :
    Input → Effect → Shared → Connection → Prop where
  | refused {bytes : Bytes} {complete : Resp.readRawFrame bytes = .ok (bytes, [])} :
      conn.phase = .reading →
      Steps site shared conn (.frame bytes complete) {} shared { conn with phase := .closed }
  | accepted {bytes : Bytes} {complete : Resp.readRawFrame bytes = .ok (bytes, [])}
      {command : Frame} {effect : Effect} {next : Connection} :
      conn.phase = .reading → conn.epoch = shared.resetEpoch → parseFrame bytes = .ok command →
      Handles site conn { request := bytes, config := conn.config } command effect next →
      Steps site shared conn (.frame bytes complete) effect shared next
  | hangup :
      conn.phase = .reading →
      Steps site shared conn .hangup {} shared { conn with phase := .closed }
  | published {entry : Entry} {text : String} :
      conn.phase = .monitoring entry →
      Steps site shared conn (.line text) {} shared (conn.publish entry text)
  | reset {entry : Entry} {response : Bytes} :
      conn.phase = .resetting entry response →
      Steps site shared conn .turn { reset := true } (resetIncrementingState shared)
        (conn.finishReset (shared.resetEpoch + 1) entry response)
  | stale {entry : Entry} {command : Frame} :
      conn.phase = .allocating entry command → conn.epoch ≠ shared.resetEpoch →
      Steps site shared conn .turn {} shared (conn.finish entry .closed)
  | allocated {entry : Entry} {command : Frame} {next : Connection} :
      conn.phase = .allocating entry command → conn.epoch = shared.resetEpoch →
      (entry.Fresh →
        Responds site conn { entry with index := some (conn.epoch, shared.commandIds) }
          (ordinaryCommand site conn.config shared.commandIds entry.request command) next) →
      Steps site shared conn .turn
        { index := some shared.commandIds, published := some command }
        { shared with commandIds := shared.commandIds + 1 } next

/-- What one step does. -/
theorem step_cases {shared shared' : Shared} {input : Input} {effect : Effect} {next : Connection}
    (h : conn.step site shared input = some (effect, shared', next)) :
    Steps site shared conn input effect shared' next := by
  cases input with
  | frame bytes complete =>
      cases hphase : conn.phase with
      | reading =>
          simp only [step, hphase] at h
          cases h
          unfold accept
          cases hparse : parseFrame bytes with
          | error error => exact .refused hphase
          | ok command =>
              dsimp only
              split_ifs with hepoch
              · exact .refused hphase
              · exact .accepted hphase (not_not.mp hepoch) hparse (handles ⟨rfl, rfl⟩)
      | resetting _ _ => simp [step, hphase] at h
      | allocating _ _ => simp [step, hphase] at h
      | monitoring _ => simp [step, hphase] at h
      | closed => simp [step, hphase] at h
  | hangup =>
      cases hphase : conn.phase with
      | reading =>
          simp only [step, hphase] at h
          cases h
          exact .hangup hphase
      | resetting _ _ => simp [step, hphase] at h
      | allocating _ _ => simp [step, hphase] at h
      | monitoring _ => simp [step, hphase] at h
      | closed => simp [step, hphase] at h
  | line text =>
      cases hphase : conn.phase with
      | monitoring entry =>
          simp only [step, hphase] at h
          cases h
          exact .published hphase
      | reading => simp [step, hphase] at h
      | resetting _ _ => simp [step, hphase] at h
      | allocating _ _ => simp [step, hphase] at h
      | closed => simp [step, hphase] at h
  | turn =>
      cases hphase : conn.phase with
      | resetting entry response =>
          simp only [step, hphase] at h
          cases h
          exact .reset hphase
      | allocating entry command =>
          simp only [step, hphase, Shared.allocate] at h
          by_cases hepoch : conn.epoch = shared.resetEpoch
          · rw [if_neg (by simpa using hepoch)] at h
            cases h
            exact .allocated hphase hepoch fun hentry =>
              responds ⟨hentry.accepted, hentry.terminal⟩
          · rw [if_pos hepoch] at h
            cases h
            exact .stale hphase hepoch
      | reading => simp [step, hphase] at h
      | monitoring _ => simp [step, hphase] at h
      | closed => simp [step, hphase] at h

/-! ## Lives -/

/-- One step of a connection, with the shared counters it finds. -/
def live (site : Site) (conn : Connection) (event : Shared × Input) : Option Connection :=
  (conn.step site event.1 event.2).map fun outcome => outcome.2.2

/-- The frames of the client, in order. -/
def framesOf (events : List (Shared × Input)) : List Bytes :=
  events.filterMap fun event =>
    match event.2 with
    | .frame bytes _ => some bytes
    | _ => none

/-- The entry that is not finished yet. -/
def pending (conn : Connection) : List Entry :=
  match conn.phase with
  | .resetting entry _ => [entry]
  | .allocating entry _ => [entry]
  | .monitoring entry => [entry]
  | _ => []

theorem Finished.pending {counted : Bool} {base next : Connection} {entry final : Entry}
    (h : Finished counted base entry next final) : next.pending = [] := by
  rcases h.phase with hphase | hphase <;> simp [Connection.pending, hphase]

theorem Responds.pending {command : Command} {next : Connection}
    (h : Responds site conn entry command next) : next.pending = [] := by
  cases h with
  | skipped hfinal => exact hfinal.pending
  | forwarded _ _ hfinal | unavailable _ _ hfinal => exact hfinal.pending

/-- Only a connection that reads accepts a frame. -/
theorem accept_of_step {shared shared' : Shared} {effect : Effect} {next : Connection}
    {bytes : Bytes} {complete : Resp.readRawFrame bytes = .ok (bytes, [])}
    (h : conn.step site shared (.frame bytes complete) = some (effect, shared', next)) :
    conn.phase = .reading ∧ conn.accept site shared bytes = (effect, next) := by
  cases hphase : conn.phase with
  | reading =>
      simp only [step, hphase] at h
      cases h
      exact ⟨rfl, rfl⟩
  | resetting _ _ => simp [step, hphase] at h
  | allocating _ _ => simp [step, hphase] at h
  | monitoring _ => simp [step, hphase] at h
  | closed => simp [step, hphase] at h

/-- A connection that is closed takes no step. -/
theorem live_closed {site : Site} {conn : Connection} (h : conn.phase = .closed)
    (event : Shared × Input) : conn.live site event = none := by
  rcases event with ⟨shared, input⟩
  unfold live
  cases input <;> simp [step, h]

end Connection

end EvilResp
