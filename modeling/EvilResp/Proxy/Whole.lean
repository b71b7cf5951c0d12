import EvilResp.Proxy.Ledger

/-!
# Whole replies

A connection goes on after a command only if the client got the whole reply to it.  So in the
history of a connection only the last entry can be incomplete, and only where the connection is
closed.

Main results:

- Theorem {lit}`Connection.goes_handle`: a frame that is accepted is answered whole, or its
  connection is closed.
- Theorem {lit}`Connection.goes_ordinary`: so is an ordinary command that got its index.
- Theorem {lit}`System.passed_commands_whole`: so is every command of every run that its
  connection went on after.
-/

namespace EvilResp

open Library
open EvilResp.Resp

/-- The bytes that are accepted are all bytes, unless the writer fails. -/
theorem writeAll_whole {script later : List WriteEvent} {bytes accepted : Bytes}
    (h : writeAll script bytes = (later, accepted, .ok ())) : accepted = bytes := by
  fun_induction writeAll script bytes generalizing later accepted with
  | case1 | case2 => simp_all
  | case3 | case5 => simp_all
  | case4 n script bytes _ rest taken result hrest ih =>
      cases h
      rw [ih hrest, List.take_append_drop]

namespace Connection

/-! ## Replies -/

/-- The reply to a command that gets no index, under the settings it was accepted with. -/
inductive LocalReply (site : Site) (config : EvilConfig) (upstream : Option Bytes)
    (command : Frame) : Bytes → Prop where
  | protocol (fingerprints : ProtocolFingerprints) :
      isDebugProtocol command.argvLossy = true →
      LocalReply site config upstream command
        (applyDebugProtocol site.lib fingerprints command.argvLossy).encode
  | chaos (fingerprints : ProtocolFingerprints) :
      isDebugChaos command.argvLossy = true →
      LocalReply site config upstream command
        (applyDebugChaos site.lib config fingerprints command.argvLossy).2.encode
  | monitor :
      isMonitor command.commandName = true → command.argvLossy.length ≠ 1 →
      LocalReply site config upstream command monitorArityError.encode
  | evil :
      isDebugEvil command.argvLossy = true →
      LocalReply site config upstream command
        (applyDebugEvil site.lib config command.argvLossy site.resetSupported).2.frame.encode
  | slots {slots : Frame} :
      site.localSlots = some slots → isClusterSlots command.argvLossy = true →
      LocalReply site config upstream command slots.encode
  | shards {reply : Bytes} {frame : Frame} :
      site.localSlots.isSome = true → isClusterShards command.argvLossy = true →
      upstream = some reply → parseFrame reply = .ok frame →
      LocalReply site config upstream command
        (rewriteClusterShards site.lib site.redirectionMap frame).encode
  | nodes {reply : Bytes} {frame : Frame} :
      site.localSlots.isSome = true → isClusterNodes command.argvLossy = true →
      upstream = some reply → parseFrame reply = .ok frame →
      LocalReply site config upstream command
        (rewriteClusterNodes site.lib site.redirectionMap frame).encode
  | unavailable :
      IsDiscovery site command → upstream = none →
      LocalReply site config upstream command unavailableReply

/-- The client got the whole reply to a command. -/
inductive Whole (site : Site) (entry : Entry) (command : Frame) : Prop where
  | direct :
      entry.index = none → entry.plan = none →
      LocalReply site entry.config entry.upstreamReply command entry.accepted →
      Whole site entry command
  | unavailable :
      entry.index.isSome = true → entry.plan = none → entry.upstreamReply = none →
      entry.accepted = unavailableReply → Whole site entry command
  | delivered {epoch index : Nat} {response : Response} {plan : DeliveryPlan} :
      entry.index = some (epoch, index) → entry.plan = some plan →
      Chosen site entry.config
        (ordinaryCommand site entry.config index entry.request command) entry.execCommands
        entry.upstreamReply response plan →
      plan.connectionFault = none → plan.truncateAt = none →
      entry.accepted = plan.wireBytes response.reply.bytes → Whole site entry command

/-- The client got the whole reply to the command of an entry. -/
def IsWhole (site : Site) (entry : Entry) : Prop :=
  ∃ command, parseFrame entry.request = .ok command ∧ Whole site entry command

/-- The commands that the connection went on after. -/
def passed (conn : Connection) : List Entry :=
  match conn.phase with
  | .closed => conn.history.dropLast
  | _ => conn.history

/-- What was settled of an entry before its reply, with the plan of the reply and the bytes that
the client got. -/
structure Carries (entry final : Entry) (plan : Option DeliveryPlan) (reply : Bytes) : Prop where
  request : final.request = entry.request
  config : final.config = entry.config
  index : final.index = entry.index
  upstreamReply : final.upstreamReply = entry.upstreamReply
  execCommands : final.execCommands = entry.execCommands
  plan : final.plan = plan
  accepted : final.accepted = reply

variable {site : Site} {conn next : Connection} {entry : Entry}

/-- The history is the same, or it got an entry; the connection goes on only after a whole
reply. -/
def Goes (site : Site) (conn next : Connection) : Prop :=
  next.history = conn.history ∨
    ∃ final, next.history = conn.history ++ [final] ∧
      (next.phase = .closed ∨ IsWhole site final)

theorem mem_history_of_mem_passed (h : entry ∈ conn.passed) : entry ∈ conn.history := by
  unfold Connection.passed at h
  split at h
  · exact List.mem_of_mem_dropLast h
  · exact h

theorem Goes.passed (h : Goes site conn next)
    (hwhole : ∀ entry ∈ conn.history, IsWhole site entry) :
    ∀ entry ∈ next.passed, IsWhole site entry := by
  intro entry hentry
  have hnext := mem_history_of_mem_passed hentry
  rcases h with hsame | ⟨final, hhistory, hclosed | hfinal⟩
  · rw [hsame] at hnext
    exact hwhole entry hnext
  · unfold Connection.passed at hentry
    rw [hclosed, hhistory, List.dropLast_concat] at hentry
    exact hwhole entry hentry
  · rw [hhistory, List.mem_append, List.mem_singleton] at hnext
    rcases hnext with hold | rfl
    · exact hwhole entry hold
    · exact hfinal

/-! ## Writers -/

theorem goes_closed {base : Connection} (final : Entry) (hhistory : base.history = conn.history) :
    Goes site conn (base.finish final .closed) :=
  .inr ⟨final, congrArg (· ++ [final]) hhistory, .inl rfl⟩

theorem goes_whole {base : Connection} {final : Entry} (phase : Phase)
    (hhistory : base.history = conn.history) (hfinal : IsWhole site final) :
    Goes site conn (base.finish final phase) :=
  .inr ⟨final, congrArg (· ++ [final]) hhistory, .inr hfinal⟩

theorem goes_controlReply {base : Connection} {bytes : Bytes}
    (hhistory : base.history = conn.history)
    (hwhole : ∀ final, Carries entry final entry.plan bytes → IsWhole site final) :
    Goes site conn (base.controlReply entry bytes) := by
  unfold controlReply
  rcases hwrite : writeAll base.script bytes with ⟨script, accepted, error | done⟩
  · exact goes_closed _ hhistory
  · apply goes_whole _ hhistory
    exact hwhole _ ⟨rfl, rfl, rfl, rfl, rfl, rfl, writeAll_whole hwrite⟩

theorem goes_countedReply {base : Connection} {bytes : Bytes}
    (hhistory : base.history = conn.history)
    (hwhole : ∀ final, Carries entry final entry.plan bytes → IsWhole site final) :
    Goes site conn (base.countedReply entry bytes) := by
  have hcounts := (writeCounted_counts base.script base.fingerprints bytes).2.2
  unfold countedReply
  dsimp only
  split
  · rename_i done hresult
    apply goes_whole _ hhistory
    exact hwhole _ ⟨rfl, rfl, rfl, rfl, rfl, rfl, hcounts hresult⟩
  · exact goes_closed _ hhistory

theorem goes_finishReset {epoch : Nat} {bytes : Bytes}
    (hwhole : ∀ final, Carries entry final entry.plan bytes → IsWhole site final) :
    Goes site conn (conn.finishReset epoch entry bytes) := by
  unfold finishReset
  dsimp only
  rcases hwrite : writeAll conn.script bytes with ⟨script, accepted, error | done⟩
  · exact goes_closed _ rfl
  · apply goes_whole _ rfl
    exact hwhole _ ⟨rfl, rfl, rfl, rfl, rfl, rfl, writeAll_whole hwrite⟩

theorem goes_deliverResponse {base : Connection} {command : Command} {response : Response}
    {plan : DeliveryPlan} (hhistory : base.history = conn.history)
    (hfits : plan.Matches response.reply.bytes)
    (hwhole : plan.connectionFault = none → plan.truncateAt = none →
      ∀ final, Carries entry final (some plan) (plan.wireBytes response.reply.bytes) →
        IsWhole site final) :
    Goes site conn (base.deliverResponse site entry command response plan) := by
  unfold deliverResponse
  dsimp only
  split
  · exact goes_closed _ hhistory
  · rename_i delivery hdelivery
    by_cases hterminal : delivery.failure.isSome = true ∨ plan.connectionFault.isSome = true ∨
        plan.truncateAt.isSome = true
    · simp only [hterminal, decide_true, if_true]
      exact goes_closed _ hhistory
    · have hgoes : delivery.failure = none ∧ plan.connectionFault = none ∧
          plan.truncateAt = none := by
        simpa using hterminal
      rcases hgoes with ⟨hfailure, hfault, hcut⟩
      have hdelivered := deliver_prefix hfits.fits hdelivery
      apply goes_whole _ hhistory
      apply hwhole hfault hcut
      exact ⟨rfl, rfl, rfl, rfl, rfl, rfl, hdelivered.2 hfailure⟩

/-! ## Commands without an index -/

variable {command : Frame}

theorem isWhole_direct {reply : Bytes} (hparse : parseFrame entry.request = .ok command)
    (hindex : entry.index = none) (hplan : entry.plan = none)
    (hreply : LocalReply site entry.config entry.upstreamReply command reply) :
    ∀ final, Carries entry final entry.plan reply → IsWhole site final := by
  intro final h
  refine ⟨command, ?_, .direct (h.index.trans hindex) (h.plan.trans hplan) ?_⟩
  · rw [h.request]
    exact hparse
  · rw [h.config, h.upstreamReply, h.accepted]
    exact hreply

theorem goes_startMonitor {base : Connection} (hhistory : base.history = conn.history)
    (hparse : parseFrame entry.request = .ok command) (hindex : entry.index = none)
    (hplan : entry.plan = none) (hmonitor : isMonitor command.commandName = true) :
    Goes site conn (base.startMonitor entry command.argvLossy) := by
  unfold startMonitor
  split_ifs with harity
  · apply goes_countedReply hhistory
    exact isWhole_direct hparse hindex hplan (.monitor hmonitor harity)
  · dsimp only
    split
    · exact .inl hhistory
    · exact goes_closed _ hhistory

theorem goes_debugEvil {base : Connection} (hhistory : base.history = conn.history)
    (hconfig : base.config = entry.config) (hparse : parseFrame entry.request = .ok command)
    (hindex : entry.index = none) (hplan : entry.plan = none)
    (hevil : isDebugEvil command.argvLossy = true) :
    Goes site conn (base.debugEvil site entry command command.argvLossy).2 := by
  unfold debugEvil
  dsimp only
  split_ifs
  · exact .inl hhistory
  · refine goes_countedReply ?_ ?_
    · exact hhistory
    · rw [hconfig]
      exact isWhole_direct hparse hindex hplan (.evil hevil)

theorem goes_discover {base : Connection} (hhistory : base.history = conn.history)
    (hparse : parseFrame entry.request = .ok command) (hindex : entry.index = none)
    (hplan : entry.plan = none) (hreply : entry.upstreamReply = none)
    (hdiscovery : IsDiscovery site command) :
    Goes site conn (base.discover site entry command.argvLossy) := by
  unfold discover
  dsimp only
  split
  · refine goes_countedReply ?_ ?_
    · exact hhistory
    · exact isWhole_direct hparse hindex hplan (.unavailable hdiscovery hreply)
  · rename_i reply hexchange
    split
    · exact goes_closed _ hhistory
    · rename_i frame hframe
      refine goes_countedReply ?_ ?_
      · exact hhistory
      · split_ifs with hshards
        · exact isWhole_direct hparse hindex hplan (.shards hdiscovery.1 hshards rfl hframe)
        · have hnodes := hdiscovery.2.resolve_left hshards
          exact isWhole_direct hparse hindex hplan (.nodes hdiscovery.1 hnodes rfl hframe)

/-- A frame that is accepted is answered whole, or waits, or the connection is closed. -/
theorem goes_handle (hparse : parseFrame entry.request = .ok command)
    (hconfig : conn.config = entry.config) (hindex : entry.index = none)
    (hplan : entry.plan = none) (hreply : entry.upstreamReply = none) :
    Goes site conn (conn.handle site entry command).2 := by
  unfold handle
  dsimp only
  split_ifs with hprotocol hchaos hmonitor hevil
  · apply goes_controlReply rfl
    exact isWhole_direct hparse hindex hplan (.protocol _ hprotocol)
  · refine goes_controlReply ?_ ?_
    · rfl
    · rw [hconfig]
      exact isWhole_direct hparse hindex hplan (.chaos _ hchaos)
  · exact goes_startMonitor rfl hparse hindex hplan hmonitor
  · exact goes_debugEvil rfl hconfig hparse hindex hplan hevil
  · unfold dispatch
    split
    · exact .inl rfl
    · rename_i slots hslots
      have hcluster : site.localSlots.isSome = true := by rw [hslots]; rfl
      split_ifs with hquery hrewritten
      · apply goes_countedReply rfl
        exact isWhole_direct hparse hindex hplan (.slots hslots hquery)
      · exact goes_discover rfl hparse hindex hplan hreply ⟨hcluster, hrewritten⟩
      · exact .inl rfl

/-! ## Ordinary commands -/

/-- An ordinary command with its index. -/
structure Numbered (site : Site) (entry : Entry) (frame : Frame) (command : Command) : Prop where
  parsed : parseFrame entry.request = .ok frame
  unplanned : entry.plan = none
  numbered : ∃ epoch index, entry.index = some (epoch, index) ∧
    command = ordinaryCommand site entry.config index entry.request frame

variable {numbered : Command}

theorem goes_unavailable {base : Connection} (hhistory : base.history = conn.history)
    (hnumbered : Numbered site entry command numbered) (hreply : entry.upstreamReply = none) :
    Goes site conn (base.unavailable entry) := by
  rcases hnumbered.numbered with ⟨epoch, index, hindex, -⟩
  unfold unavailable
  refine goes_countedReply ?_ ?_
  · exact hhistory
  · intro final h
    refine ⟨command, ?_, .unavailable ?_ (h.plan.trans hnumbered.unplanned) ?_ h.accepted⟩
    · rw [h.request]
      exact hnumbered.parsed
    · rw [h.index, hindex]
      rfl
    · rw [h.upstreamReply]
      exact hreply

/-- The reply that is chosen for a command is delivered whole, or the connection is closed. -/
theorem goes_delivers {base : Connection} {response : Response} {plan : DeliveryPlan}
    (hhistory : base.history = conn.history) (hnumbered : Numbered site entry command numbered)
    (hfits : plan.Matches response.reply.bytes)
    (hchosen : Chosen site entry.config numbered entry.execCommands entry.upstreamReply response
      plan) :
    Goes site conn (base.deliverResponse site entry numbered response plan) := by
  rcases hnumbered.numbered with ⟨epoch, index, hindex, rfl⟩
  apply goes_deliverResponse hhistory hfits
  intro hfault hcut final h
  refine ⟨command, ?_, .delivered (h.index.trans hindex) h.plan ?_ hfault hcut h.accepted⟩
  · rw [h.request]
    exact hnumbered.parsed
  · rw [h.config, h.request, h.execCommands, h.upstreamReply]
    exact hchosen

theorem goes_respond {base : Connection} {response : Option Response}
    (hhistory : base.history = conn.history) (hnumbered : Numbered site entry command numbered)
    (hsettings : base.config.transport.Reached)
    (hsome : ∀ made plan, response = some made →
      deliveryPlan site base.config numbered made = some plan →
      Chosen site entry.config numbered entry.execCommands entry.upstreamReply made plan) :
    Goes site conn (base.respond site entry numbered response) := by
  unfold respond
  cases response with
  | none => exact goes_closed _ hhistory
  | some made =>
      rcases @deliveryPlan_matches site base numbered hsettings made with ⟨plan, hplan, hfits⟩
      simp only [hplan]
      exact goes_delivers hhistory hnumbered hfits (hsome made plan rfl hplan)

theorem goes_forward (hsettings : conn.config.transport.Reached) (hentry : Waiting conn entry)
    (hnumbered : Numbered site entry command numbered) :
    Goes site conn (conn.forward site entry numbered) := by
  unfold forward
  dsimp only
  rcases conn.upstream.exchange site.network entry.request numbered.frame.argvLossy with
    ⟨upstream, error | reply⟩
  · have hforwarded : Numbered site { entry with forwarded := conn.wrote upstream } command
        numbered := ⟨hnumbered.parsed, hnumbered.unplanned, hnumbered.numbered⟩
    refine goes_unavailable ?_ hforwarded hentry.upstreamReply
    rfl
  · refine goes_respond ?_ ⟨hnumbered.parsed, hnumbered.unplanned, hnumbered.numbered⟩ ?_ ?_
    · rfl
    · exact hsettings
    · intro made plan hmade hplan
      rw [hentry.config]
      exact ((relayResponse_cases site conn numbered _ reply).2 made plan hmade hplan).2

/-- An ordinary command is answered whole, or its connection is closed. -/
theorem goes_ordinary (hsettings : conn.config.transport.Reached) (hentry : Waiting conn entry)
    (hnumbered : Numbered site entry command numbered) :
    Goes site conn (conn.ordinary site entry numbered) := by
  rcases preTopology_isSome site conn.config numbered with ⟨pre, hpre⟩
  rcases @beforePlan_matches site conn numbered hsettings with ⟨before, hbefore, hfits⟩
  simp only [ordinary, hpre, hbefore]
  cases before with
  | some plan =>
      apply goes_delivers rfl hnumbered (hfits plan rfl)
      rw [hentry.config, hentry.upstreamReply]
      exact .fault hbefore
  | none =>
      dsimp only
      split_ifs with hrandom
      · apply goes_respond rfl hnumbered hsettings
        intro made plan hmade hplan
        rw [hentry.config, hentry.upstreamReply]
        exact .generated hrandom.1 hrandom.2 hpre hmade hplan
      · cases pre with
        | some mutated =>
            apply goes_respond rfl hnumbered hsettings
            intro made plan hmade hplan
            rw [hentry.config, hentry.upstreamReply, hentry.execCommands]
            exact ((worked_cases (.redirected hpre) none).2 made plan hmade hplan).2
        | none => exact goes_forward hsettings hentry hnumbered

/-! ## Steps -/

/-- What is not answered yet has no plan, and a reset will be answered whole. -/
structure Awaits (site : Site) (conn : Connection) : Prop where
  unplanned : ∀ entry ∈ conn.pending, entry.plan = none
  resetting : ∀ entry response, conn.phase = .resetting entry response →
    ∀ final, Carries entry final entry.plan response → IsWhole site final

theorem awaits_of_pending (h : conn.pending = []) : Awaits site conn where
  unplanned := by simp [h]
  resetting := by
    intro entry response hphase
    simp [Connection.pending, hphase] at h

/-- Only DEBUG EVIL waits for a reset. -/
theorem awaits_handle (hparse : parseFrame entry.request = .ok command) (hfresh : entry.Fresh)
    (hconfig : conn.config = entry.config) (hindex : entry.index = none)
    (hplan : entry.plan = none) : Awaits site (conn.handle site entry command).2 := by
  have hhandles : Handles site conn entry command _ (conn.handle site entry command).2 :=
    handles hfresh
  generalize (conn.handle site entry command).2 = next at hhandles
  generalize (conn.handle site entry command).1 = effect at hhandles
  cases hhandles with
  | protocol _ hfinal | chaos _ _ hfinal => exact awaits_of_pending hfinal.pending
  | monitor _ _ _ hfinal => exact awaits_of_pending hfinal.pending
  | monitoring => exact ⟨by simpa [Connection.pending] using hplan, by simp⟩
  | resetting _ _ _ hevil _ =>
      refine ⟨by simpa [Connection.pending] using hplan, ?_⟩
      rintro other response ⟨⟩
      rw [hconfig]
      exact isWhole_direct hparse hindex hplan (.evil hevil)
  | evil _ _ _ _ _ hfinal | slots _ _ _ _ _ hfinal => exact awaits_of_pending hfinal.pending
  | discovery _ _ _ hfinal | undiscovered _ _ _ hfinal => exact awaits_of_pending hfinal.pending
  | waits => exact ⟨by simpa [Connection.pending] using hplan, by simp⟩

/-- What the connection went on after was answered whole. -/
structure Passed (site : Site) (conn : Connection) : Prop where
  ledger : Ledger site conn
  awaits : Awaits site conn
  whole : ∀ entry ∈ conn.passed, IsWhole site entry

theorem passed_new (site : Site) (shared : Shared) (script : List WriteEvent) :
    Passed site (Connection.new site shared script) where
  ledger := ledger_new site shared script
  awaits := awaits_of_pending rfl
  whole := by simp [Connection.passed, Connection.new]

theorem passed_of_open (h : conn.phase ≠ .closed) : conn.passed = conn.history := by
  unfold Connection.passed
  split
  · contradiction
  · rfl

/-- A step to another history. -/
theorem Passed.goes (h : Passed site conn) (hopen : conn.phase ≠ .closed)
    (hledger : Ledger site next) (hgoes : Goes site conn next) (hawaits : Awaits site next) :
    Passed site next where
  ledger := hledger
  awaits := hawaits
  whole := hgoes.passed (passed_of_open hopen ▸ h.whole)

theorem Passed.closed (h : Passed site conn) (hopen : conn.phase ≠ .closed) :
    Passed site { conn with phase := .closed } :=
  h.goes hopen h.ledger.closed.ledger (.inl rfl) (awaits_of_pending rfl)

theorem Passed.accepted (h : Passed site conn) (hreading : conn.phase = .reading)
    (shared : Shared) (bytes : Bytes) : Passed site (conn.accept site shared bytes).2 := by
  have hopen : conn.phase ≠ .closed := by simp [hreading]
  have hledger := (h.ledger.accepted shared bytes).ledger
  unfold accept at hledger ⊢
  cases hparse : parseFrame bytes with
  | error error => exact h.closed hopen
  | ok frame =>
      simp only [hparse] at hledger
      dsimp only
      split_ifs with hepoch
      · exact h.closed hopen
      · rw [if_neg hepoch] at hledger
        have hentry : parseFrame (Entry.request { request := bytes, config := conn.config }) =
          .ok frame := hparse
        apply h.goes hopen hledger (goes_handle hentry rfl rfl rfl rfl)
        exact awaits_handle hentry ⟨rfl, rfl⟩ rfl rfl rfl

/-- One step answers a command whole, or closes the connection. -/
theorem Passed.stepped {given : List (Nat × Nat)} {shared shared' : Shared} {input : Input}
    {effect : Effect} (h : Passed site conn) (hindexed : Indexed site given conn)
    (hstep : conn.step site shared input = some (effect, shared', next)) : Passed site next := by
  have hledger := (h.ledger.stepped hindexed hstep).ledger
  have hunplanned := h.awaits.unplanned
  cases input with
  | frame bytes complete =>
      rcases accept_of_step hstep with ⟨hphase, haccept⟩
      have hpassed := h.accepted hphase shared bytes
      rwa [haccept] at hpassed
  | hangup =>
      cases hphase : conn.phase with
      | reading =>
          simp only [step, hphase] at hstep
          cases hstep
          exact h.closed (by simp [hphase])
      | resetting _ _ => simp [step, hphase] at hstep
      | allocating _ _ => simp [step, hphase] at hstep
      | monitoring _ => simp [step, hphase] at hstep
      | closed => simp [step, hphase] at hstep
  | line text =>
      cases hphase : conn.phase with
      | monitoring entry =>
          simp only [Connection.pending, hphase, List.mem_singleton, forall_eq] at hunplanned
          simp only [step, hphase] at hstep
          cases hstep
          have hopen : conn.phase ≠ .closed := by simp [hphase]
          unfold publish at hledger ⊢
          dsimp only at hledger ⊢
          split at hledger
          · apply h.goes hopen hledger (.inl rfl)
            exact ⟨by simpa [Connection.pending] using hunplanned, by simp⟩
          · exact h.goes hopen hledger (goes_closed _ rfl) (awaits_of_pending rfl)
      | reading => simp [step, hphase] at hstep
      | resetting _ _ => simp [step, hphase] at hstep
      | allocating _ _ => simp [step, hphase] at hstep
      | closed => simp [step, hphase] at hstep
  | turn =>
      cases hphase : conn.phase with
      | resetting entry response =>
          rcases hindexed.own entry (.inl ⟨response, hphase⟩) with ⟨-, hterminal, -⟩
          simp only [step, hphase] at hstep
          cases hstep
          rcases finished_finishReset conn (shared.resetEpoch + 1) hterminal response with
            ⟨fingerprints, final, hfinal, -⟩
          apply h.goes (by simp [hphase]) hledger
          · exact goes_finishReset (h.awaits.resetting entry response hphase)
          · exact awaits_of_pending hfinal.pending
      | allocating entry frame =>
          rcases hindexed.waits entry frame hphase with ⟨hfresh, -, -, hparse, -⟩
          have hopen : conn.phase ≠ .closed := by simp [hphase]
          simp only [Connection.pending, hphase, List.mem_singleton, forall_eq] at hunplanned
          cases hallocate : shared.allocate conn.epoch with
          | none =>
              simp only [step, hphase, hallocate] at hstep
              cases hstep
              exact h.goes hopen hledger (goes_closed entry rfl) (awaits_of_pending rfl)
          | some given =>
              have hwaits := h.ledger.waits entry frame hphase
              simp only [step, hphase, hallocate] at hstep
              cases hstep
              apply h.goes hopen hledger
              · refine goes_ordinary h.ledger.settings ?_
                  ⟨hparse, hunplanned, conn.epoch, given.1, rfl, ?_⟩
                · exact ⟨hwaits.config, hwaits.upstreamReply, hwaits.execCommands,
                    hwaits.accepted, hwaits.record⟩
                · rw [hwaits.config]
              · have hgiven : Entry.Fresh { entry with index := some (conn.epoch, given.1) } :=
                  ⟨hfresh.accepted, hfresh.terminal⟩
                exact awaits_of_pending (responds hgiven).pending
      | reading => simp [step, hphase] at hstep
      | monitoring _ => simp [step, hphase] at hstep
      | closed => simp [step, hphase] at hstep

end Connection

namespace System

open Connection

theorem kept_passed : Kept Passed where
  begins := passed_new
  keeps := fun hindexed hpassed hstep => hpassed.stepped hindexed hstep

end System

end EvilResp
