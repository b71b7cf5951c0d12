import EvilResp.Proxy.Ledger
import EvilResp.Proxy.Receipts
import EvilResp.Proxy.Relay

/-!
# Settings belong to their connection

Connections share counters, monitors and a file, but no settings.  The settings a command runs
under are made from the defaults by the settings commands that its own connection accepted
before it, whatever the others do meanwhile.  So a command that the defaults protect stays
protected until its own client replaces the exclusion filters.

Main results:

- Theorem {lit}`System.settings_replayed`: the settings of every command of every run.
- Theorem {lit}`System.excluded_untampered`: protected commands are relayed, in every run.
-/

namespace EvilResp

open Library
open EvilResp.Resp

/-! ## Settings commands -/

namespace Connection

/-- The settings command that a frame holds. -/
def settingsRequest (request : Bytes) : Option EvilConfig.DebugRequest :=
  match parseFrame request with
  | .error _ => none
  | .ok command =>
      if isDebugChaos command.argvLossy then some (.chaos {} command.argvLossy)
      else if isDebugEvil command.argvLossy then some (.evil command.argvLossy)
      else none

/-- The settings that the frames of a client make of the defaults. -/
def settingsAfter (site : Site) (requests : List Bytes) : EvilConfig :=
  EvilConfig.settle site.lib site.resetSupported {} (requests.filterMap settingsRequest)

variable {site : Site} {conn next : Connection}

theorem settingsAfter_snoc (site : Site) (requests : List Bytes) (request : Bytes) :
    settingsAfter site (requests ++ [request]) =
      EvilConfig.settle site.lib site.resetSupported (settingsAfter site requests)
        (settingsRequest request).toList := by
  unfold settingsAfter EvilConfig.settle
  rw [List.filterMap_append, List.foldl_append]
  cases hrequest : settingsRequest request <;> simp [List.filterMap, hrequest]

/-! ## Settings of a connection -/

/-- A frame changes the settings exactly if it is a settings command. -/
theorem Handles.config {bytes : Bytes} {command : Frame} {effect : Effect}
    (hparse : parseFrame bytes = .ok command)
    (h : Handles site conn { request := bytes, config := conn.config } command effect next) :
    next.config = EvilConfig.settle site.lib site.resetSupported conn.config
      (settingsRequest bytes).toList := by
  have hother : isDebugChaos command.argvLossy = false → isDebugEvil command.argvLossy = false →
      EvilConfig.settle site.lib site.resetSupported conn.config (settingsRequest bytes).toList =
        conn.config := by
    intro hchaos hevil
    simp [settingsRequest, hparse, hchaos, hevil, EvilConfig.settle]
  have hsettings : isDebugChaos command.argvLossy = false → isDebugEvil command.argvLossy = true →
      EvilConfig.settle site.lib site.resetSupported conn.config (settingsRequest bytes).toList =
        (applyDebugEvil site.lib conn.config command.argvLossy site.resetSupported).1 := by
    intro hchaos hevil
    simp [settingsRequest, hparse, hchaos, hevil, EvilConfig.settle, EvilConfig.applyRequest]
  cases h with
  | protocol hprotocol hfinal =>
      rw [hfinal.config,
        hother (isDebug_unique hprotocol (by decide)) (isDebug_unique hprotocol (by decide))]
  | chaos hprotocol hchaos hfinal =>
      have hrequest : (settingsRequest bytes).toList = [.chaos {} command.argvLossy] := by
        simp [settingsRequest, hparse, hchaos]
      rw [hfinal.config, hrequest]
      simp only [EvilConfig.settle, List.foldl_cons, List.foldl_nil, EvilConfig.applyRequest,
        applyDebugChaos]
      split <;> rfl
  | monitor hprotocol hchaos hmonitor hfinal =>
      exact hfinal.config.trans (hother hchaos (not_isDebug_of_isMonitor hmonitor)).symm
  | monitoring hprotocol hchaos hmonitor =>
      exact (hother hchaos (not_isDebug_of_isMonitor hmonitor)).symm
  | resetting hprotocol hchaos hmonitor hevil hreset => exact (hsettings hchaos hevil).symm
  | evil hprotocol hchaos hmonitor hevil hreset hfinal =>
      exact hfinal.config.trans (hsettings hchaos hevil).symm
  | slots hprotocol hchaos _ hevil _ hfinal =>
      exact hfinal.config.trans (hother hchaos hevil).symm
  | discovery hlocal _ _ hfinal | undiscovered hlocal _ _ hfinal =>
      simp only [IsLocal, not_or, Bool.not_eq_true] at hlocal
      exact hfinal.config.trans (hother hlocal.2.1 hlocal.2.2.2.1).symm
  | waits hlocal _ =>
      simp only [IsLocal, not_or, Bool.not_eq_true] at hlocal
      exact (hother hlocal.2.1 hlocal.2.2.2.1).symm

/-! ## Replays -/

/-- The settings of a connection, and those that its frames found, are replayed. -/
structure Replayed (site : Site) (conn : Connection) : Prop where
  settings : conn.config = settingsAfter site (conn.receipts.map (·.request))
  found : ∀ past receipt later, conn.receipts = past ++ receipt :: later →
    receipt.config = settingsAfter site (past.map (·.request))

theorem replayed_new (site : Site) (shared : Shared) (script : List WriteEvent) :
    Replayed site (Connection.new site shared script) where
  settings := rfl
  found := by
    intro past receipt later hsplit
    rw [receipts_idle rfl] at hsplit
    simp [Connection.new] at hsplit

theorem Replayed.receives {effect : Effect} (h : Replayed site conn)
    (hreceives : Receives site conn effect next) : Replayed site next := by
  cases hreceives with
  | kept _ _ hreceipts hsettings =>
      constructor
      · rw [hsettings, hreceipts]
        exact h.settings
      · rw [hreceipts]
        exact h.found
  | accepted hparse hhandles hreceipts =>
      constructor
      · rw [hhandles.config hparse, hreceipts, List.map_append, List.map_singleton,
          settingsAfter_snoc, ← h.settings]
      · intro past receipt later hsplit
        rw [hreceipts] at hsplit
        -- The last frame found the settings that the others had made.
        rcases eq_concat_cases hsplit with ⟨rfl, rfl, rfl⟩ | ⟨before, rfl, hpast⟩
        · exact h.settings
        · exact h.found past receipt before hpast
  | allocated _ _ _ _ _ _ hbefore hafter hsettings =>
      constructor
      · rw [hsettings, h.settings, hbefore, hafter, List.map_append, List.map_append,
          List.map_singleton, List.map_singleton]
      · intro past receipt later hsplit
        rw [hafter] at hsplit
        rcases eq_concat_cases hsplit with ⟨rfl, rfl, rfl⟩ | ⟨before, rfl, hpast⟩
        · exact (h.found past _ [] hbefore :)
        · apply h.found past receipt (before ++ [_])
          rw [hbefore, hpast, List.append_assoc, List.cons_append]

end Connection

namespace System

open Connection

/-- The settings of every connection are its own. -/
theorem kept_replayed : Kept Replayed where
  begins := replayed_new
  keeps := fun hindexed hreplayed hstep => hreplayed.receives (stepped_receives hindexed hstep)

/-- The settings of one entry. -/
theorem Each.config_eq {system : System} (h : system.Each Replayed) {i : Nat} {site : Site}
    {conn : Connection} (hconn : system.connections[i]? = some (site, conn))
    {past later : List Entry} {entry : Entry} (hsplit : conn.history = past ++ entry :: later) :
    entry.config = settingsAfter site (past.map (·.request)) := by
  have hreceipts : conn.receipts = past.map Entry.receipt ++
      entry.receipt :: (later ++ conn.pending).map Entry.receipt := by
    rw [receipts, hsplit, List.append_assoc, List.cons_append, List.map_append, List.map_cons]
  have hfound := (h.each i site conn hconn).found _ _ _ hreceipts
  rwa [List.map_map] at hfound

/-- In every run of any number of connections each command runs under the settings that the
earlier settings commands of its own connection make of the defaults; and so does the step that
answers it, with the command itself added where it had waited for its turn.  An ordinary command
finds the same settings in both steps. -/
theorem settings_replayed (actions : List Action) (system : System)
    (h : Machine.run step {} actions = some system) :
    ∀ (i : Nat) site conn, system.connections[i]? = some (site, conn) →
      ∀ past entry later, conn.history = past ++ entry :: later →
        entry.config = settingsAfter site (past.map (·.request)) ∧
        ∃ before after, Adds actions i site before entry after ∧ before.history = past ∧
          before.config = settingsAfter site ((past ++ before.pending).map (·.request)) ∧
          (entry.index.isSome = true → before.config = entry.config) := by
  intro i site conn hconn past entry later hsplit
  refine ⟨(kept_replayed.each_run h).config_eq hconn hsplit, ?_⟩
  rcases entry_accounted h hconn hsplit with ⟨before, after, hadds, hpast, haccount⟩
  have hreplayed : Replayed site before := kept_replayed.before_adds hadds
  refine ⟨before, after, hadds, hpast, ?_, fun hindex => ?_⟩
  · rw [hreplayed.settings, receipts, hpast, List.map_map]
    rfl
  · rcases Option.isSome_iff_exists.mp hindex with ⟨⟨epoch, index⟩, hgiven⟩
    rcases haccount.answered epoch index hgiven with ⟨-, -, hconfig, -⟩
    exact hconfig.symm

/-- The settings of a connection that set its own seed, next to one that set another. -/
theorem settings_replayed_seed :
    ∃ system site conn, Machine.run step {} [.accept .acknowledging [], .accept .acknowledging [],
      .act 0 (.inline "DEBUG EVIL SEED 7" rfl),
      .act 1 (.inline "DEBUG EVIL MODE MUTATE" rfl),
      .act 0 (.inline "PING" rfl), .act 0 .turn] = some system ∧
      system.connections[0]? = some (site, conn) ∧ conn.history.map (·.config.seed) = [0, 7] ∧
      ∀ past entry later, conn.history = past ++ entry :: later →
        entry.config = settingsAfter site (past.map (·.request)) := by
  have hrun : (Machine.run step {} [.accept .acknowledging [], .accept .acknowledging [],
      .act 0 (.inline "DEBUG EVIL SEED 7" rfl),
      .act 1 (.inline "DEBUG EVIL MODE MUTATE" rfl),
      .act 0 (.inline "PING" rfl), .act 0 .turn]).map
        (fun system => system.connections[0]?.map (·.2.history.map (·.config.seed))) =
      some (some [0, 7]) := by
    decide +kernel
  rcases Option.map_eq_some_iff.mp hrun with ⟨system, hsystem, hhistory⟩
  rcases Option.map_eq_some_iff.mp hhistory with ⟨⟨site, conn⟩, hconn, hhistory⟩
  refine ⟨system, site, conn, hsystem, hconn, hhistory, fun past entry later hsplit => ?_⟩
  exact (settings_replayed _ system hsystem 0 site conn hconn past entry later hsplit).1

end System

/-! ## Exclusion filters -/

namespace EvilConfig

variable {lib : Externals} {config next : EvilConfig} {result : DebugResult}

theorem excluded_applyMode {args : List String}
    (h : config.applyMode lib args = .ok (next, result)) : next.excluded = config.excluded := by
  cases args with
  | nil => cases h
  | cons mode options =>
      simp only [applyMode] at h
      split_ifs at h
      · cases h
        rfl
      · rcases bind_eq_ok_iff.mp h with ⟨mode, -, hmode⟩
        rcases bind_eq_ok_iff.mp hmode with ⟨probability, -, hok⟩
        cases hok
        rfl

/-- One subcommand replaces the exclusion filters, and no other does. -/
theorem excluded_applySubcommand {name : String} {args : List String}
    (h : config.applySubcommand lib name args = .ok (next, result)) (hname : name ≠ "EXCLUDE") :
    next.excluded = config.excluded := by
  unfold applySubcommand at h
  split at h
  · cases args with
    | nil => cases h
    | cons seed options =>
        simp only [applySeed] at h
        split_ifs at h
        rcases bind_eq_ok_iff.mp h with ⟨seed, -, hok⟩
        cases hok
        rfl
  · exact excluded_applyMode h
  case h_7 | h_8 | h_9 =>
    rcases bind_eq_ok_iff.mp h with ⟨value, -, hvalue⟩
    rcases bind_eq_ok_iff.mp hvalue with ⟨choice, -, hok⟩
    cases hok
    rfl
  case h_12 | h_13 =>
    split_ifs at h
    cases h
    rfl
  case h_15 => exact absurd rfl hname
  case h_16 => cases h
  all_goals
    rcases bind_eq_ok_iff.mp h with ⟨value, -, hok⟩
    cases hok
    rfl

theorem excluded_applyDebugEvil (argv : List String) (resetSupported : Bool)
    (hname : toAsciiUppercase (argv.getD 2 "") ≠ "EXCLUDE") :
    (applyDebugEvil lib config argv resetSupported).1.excluded = config.excluded := by
  rcases applyDebugEvil_cases lib config argv resetSupported with
    hsame | ⟨next, result, hsubcommand, hnext | hundone⟩
  · rw [hsame]
  · rw [hnext]
    exact excluded_applySubcommand hsubcommand hname
  · rw [hundone]
    show next.excluded = config.excluded
    exact excluded_applySubcommand hsubcommand hname

theorem excluded_expand {temperature : F64} {seed : UInt64}
    (h : Chaos.expand config temperature seed = .ok next) : next.excluded = config.excluded := by
  rcases bind_eq_ok_iff.mp h with ⟨generator, -, hgenerator⟩
  rcases bind_eq_ok_iff.mp hgenerator with ⟨exec, -, hrest⟩
  rcases bind_eq_ok_iff.mp hrest with ⟨framing, -, hrest⟩
  rcases bind_eq_ok_iff.mp hrest with ⟨transport, -, hok⟩
  cases hok
  rfl

theorem excluded_applyDebugChaos (fingerprints : ProtocolFingerprints) (argv : List String) :
    (applyDebugChaos lib config fingerprints argv).1.excluded = config.excluded := by
  rcases applyDebugChaos_cases lib config fingerprints argv with
    hsame | ⟨temperature, seed, hexpand⟩
  · rw [hsame]
  · exact excluded_expand hexpand

/-- Whether a command replaces the exclusion filters. -/
def DebugRequest.replacesExclusions : DebugRequest → Prop
  | .evil argv => toAsciiUppercase (argv.getD 2 "") = "EXCLUDE"
  | .chaos _ _ => False

/-- The exclusion filters stay until they are replaced. -/
theorem excluded_settle {resetSupported : Bool} (requests : List DebugRequest) :
    ∀ {config : EvilConfig}, (∀ request ∈ requests, ¬ request.replacesExclusions) →
      (settle lib resetSupported config requests).excluded = config.excluded := by
  induction requests with
  | nil =>
      intro config _
      rfl
  | cons request requests ih =>
      intro config hkeeps
      rcases List.forall_mem_cons.mp hkeeps with ⟨hfirst, hrest⟩
      apply (ih hrest).trans
      cases request with
      | evil argv => exact excluded_applyDebugEvil argv resetSupported hfirst
      | chaos fingerprints argv => exact excluded_applyDebugChaos fingerprints argv

/-- The filters that exclude a command by its name. -/
theorem shouldMutateCommand_of_excluded {name : String}
    (hexcluded : config.excluded = defaultExcludedCommands.map FilterSpec.ofLiteral)
    (hname : name ∈ defaultExcludedCommands) : config.shouldMutateCommand (some name) = false := by
  have hmatches : config.excluded.any (·.matchesCommand name) = true := by
    rw [hexcluded, List.any_map, List.any_eq_true]
    refine ⟨name, hname, ?_⟩
    show eqIgnoreAsciiCase name (toAsciiUppercase name) = true
    rw [eqIgnoreAsciiCase_iff, toAsciiLowercase_toAsciiUppercase]
  simp [shouldMutateCommand, hmatches]

end EvilConfig

/-! ## Protected commands -/

namespace Connection

variable {site : Site} {config : EvilConfig} {entry : Entry} {command : Command}

/-- The reply that an entry has is that of the exchange of its command. -/
def Obtained (site : Site) (conn : Connection) (entry : Entry) (reply : Bytes) : Prop :=
  entry.upstreamReply = some reply ∧ ∃ frame upstream,
    parseFrame entry.request = .ok frame ∧
    conn.upstream.exchange site.network entry.request frame.argvLossy = (upstream, .ok reply)

/-- What becomes of a command that is spared, with the connection before it. -/
inductive Untampered (site : Site) (conn : Connection) (entry : Entry) : Prop where
  | unavailable {frame : Frame} {upstream : UpstreamConnection} {error : AppError} :
      parseFrame entry.request = .ok frame →
      conn.upstream.exchange site.network entry.request frame.argvLossy =
        (upstream, .error error) →
      Refused conn entry → Untampered site conn entry
  | unreadable {reply : Bytes} {failed : AppError} :
      Obtained site conn entry reply →
      normalizeClusterRedirection site.lib site.localSlots site.redirectionMap reply =
        .error failed →
      entry.accepted = [] → entry.record = none → Untampered site conn entry
  | relayed {reply relayBytes : Bytes} :
      Obtained site conn entry reply →
      normalizeClusterRedirection site.lib site.localSlots site.redirectionMap reply =
        .ok relayBytes →
      entry.plan = some (.plain relayBytes.length) → entry.accepted <+: relayBytes →
      (entry.terminal = false → entry.accepted = relayBytes ∧ entry.record = none) →
      (∀ record, entry.record = some record →
        record.mutations = [] ∧ record.response = relayBytes ∧
          record.deliveryOutcome.errorKind.isSome = true) →
      Untampered site conn entry

/-- Every gate of the settings is closed for a command. -/
structure Spared (site : Site) (config : EvilConfig) (command : Command) : Prop where
  transport : transportEnabled config command = false
  values : mutatesValues config command = false
  before : beforePlan site config command = some none
  redirected : preTopology site config command = some none
  relayed : ∀ relayBytes, relayTopology site config command relayBytes = some none
  forwards : ¬ (config.mode = .random ∧ command.shouldMutate = true)

/-- The filters spare a command. -/
theorem spared_of_filtered (h : command.shouldMutate = false) : Spared site config command := by
  have htransport : transportEnabled config command = false := by simp [transportEnabled, h]
  refine ⟨htransport, by simp [mutatesValues, h], by simp [beforePlan, htransport], ?_, ?_,
    by simp [h]⟩
  · unfold preTopology
    split <;> simp [h]
  · intro relayBytes
    unfold relayTopology
    split <;> simp [h]

/-- A spared command is answered with the reply of the upstream. -/
theorem Chosen.spared {execCommands : Option (List String)} {upstream : Option Bytes}
    {response : Response} {plan : DeliveryPlan}
    (h : Chosen site config command execCommands upstream response plan)
    (hspared : Spared site config command) :
    ∃ reply relayBytes, upstream = some reply ∧
      normalizeClusterRedirection site.lib site.localSlots site.redirectionMap reply =
        .ok relayBytes ∧
      response.reply = { bytes := relayBytes, mutations := [] } ∧
      plan = .plain relayBytes.length := by
  cases h with
  | fault hfault =>
      rw [hspared.before] at hfault
      cases hfault
  | generated hmode hmutate _ _ _ => exact absurd ⟨hmode, hmutate⟩ hspared.forwards
  | worked hbase hresponse hplan =>
      cases hbase with
      | redirected hredirected =>
          rw [hspared.redirected] at hredirected
          cases hredirected
      | relayed hrelay htopology =>
          rename_i reply relayBytes topology
          rw [hspared.relayed] at htopology
          obtain rfl := Option.some.inj htopology
          simp only [mutateRelayed, hspared.values, hspared.transport, Bool.false_eq_true,
            or_self, if_false, Option.some.injEq] at hresponse
          subst hresponse
          simp only [deliveryPlan, hspared.transport, Bool.false_eq_true, if_false,
            Option.some.injEq] at hplan
          subst hplan
          exact ⟨reply, relayBytes, rfl, hrelay, rfl, rfl⟩

theorem Told.obtained {conn : Connection} {frame : Frame} {reply : Bytes}
    {execCommands : Option (List String)} {upstream : UpstreamConnection}
    (h : Told site conn entry.request command (some reply) execCommands upstream)
    (hparse : parseFrame entry.request = .ok frame) (hframe : command.frame = frame)
    (hreply : entry.upstreamReply = some reply) : Obtained site conn entry reply := by
  cases h with
  | replied _ hexchange => exact ⟨hreply, frame, upstream, hparse, hframe ▸ hexchange⟩

/-- The answer to a spared command. -/
theorem Answered.untampered {conn next : Connection} {frame : Frame}
    (h : Answered site conn entry command next) (hparse : parseFrame entry.request = .ok frame)
    (hframe : command.frame = frame) (hspared : Spared site entry.config command) :
    Untampered site conn entry := by
  cases h with
  | unreadable htold hunreadable hempty hrecord =>
      generalize hupstream : entry.upstreamReply = upstream at hunreadable htold
      cases hunreadable with
      | reply hfailed _ =>
          exact .unreadable (htold.obtained hparse hframe hupstream) hfailed hempty hrecord
      | relayed hrelay htopology _ =>
          rw [hspared.relayed] at htopology
          cases htopology
      | base _ hchanged _ =>
          rw [hspared.transport, hspared.values] at hchanged
          simp at hchanged
  | unavailable _ hexchange hrefused =>
      exact .unavailable hparse (hframe ▸ hexchange) hrefused
  | @delivered response plan delivery htold hchosen hdelivers =>
      rcases hchosen.spared hspared with ⟨reply, relayBytes, hupstream, hrelay, hreply, rfl⟩
      have hbytes : response.reply.bytes = relayBytes := by rw [hreply]
      have hwire : (DeliveryPlan.plain relayBytes.length).wireBytes response.reply.bytes =
          relayBytes := by
        rw [hbytes]
        exact DeliveryPlan.wireBytes_plain relayBytes
      have hplain : (DeliveryPlan.plain relayBytes.length).isFault = false := by
        unfold DeliveryPlan.isFault DeliveryPlan.plain
        split <;> rfl
      have hrecorded : entry.record.isSome = true ↔ delivery.failure.isSome = true := by
        rw [hdelivers.recorded, hreply, hplain]
        simp
      rw [hupstream] at htold
      apply Untampered.relayed (htold.obtained hparse hframe hupstream) hrelay hdelivers.planned
      · rw [← hwire]
        exact hdelivers.begins
      · intro hgoes
        have hwritten : delivery.failure = none := by
          by_contra hfailed
          rw [hdelivers.terminal.mpr (.inl (Option.isSome_iff_ne_none.mpr hfailed))] at hgoes
          cases hgoes
        refine ⟨(hdelivers.whole hwritten).trans hwire, ?_⟩
        rw [hwritten] at hrecorded
        simpa using hrecorded
      · intro record hrecord
        have hdescribed := hdelivers.described record hrecord
        refine ⟨hdescribed.mutations.trans (by rw [hreply]), hdescribed.reply.trans hbytes, ?_⟩
        rw [hdescribed.errorKind, Option.isSome_map]
        exact hrecorded.mp (by rw [hrecord]; rfl)

/-- A frame that replaces the exclusion filters of its connection. -/
def replacesExclusions (request : Bytes) : Prop :=
  ∃ settings, settingsRequest request = some settings ∧ settings.replacesExclusions

/-- As long as they are not replaced, the exclusion filters are the default ones. -/
theorem excluded_settingsAfter {requests : List Bytes}
    (h : ∀ request ∈ requests, ¬ replacesExclusions request) :
    (settingsAfter site requests).excluded = defaultExcludedCommands.map FilterSpec.ofLiteral := by
  apply EvilConfig.excluded_settle
  intro settings hsettings
  rcases List.mem_filterMap.mp hsettings with ⟨request, hrequest, hfound⟩
  exact fun hreplaces => h request hrequest ⟨settings, hfound, hreplaces⟩

end Connection

namespace System

open Connection

/-- In every run of any number of connections, a command that the default filters protect is
relayed by the step that answers it, until its own client replaces the exclusion filters: whatever
else is configured, by whatever other commands and presets, the client gets the reply of the
upstream with its cluster endpoints mapped, in one piece and without a mutation, or is told that
the exchange failed, and there is a record only if the client's writer failed. -/
theorem excluded_untampered (actions : List Action) (system : System)
    (h : Machine.run step {} actions = some system) :
    ∀ (i : Nat) site conn, system.connections[i]? = some (site, conn) →
      ∀ past entry later epoch index frame name, conn.history = past ++ entry :: later →
        (∀ earlier ∈ past, ¬ replacesExclusions earlier.request) →
        entry.index = some (epoch, index) → parseFrame entry.request = .ok frame →
        frame.commandName = some name → name ∈ defaultExcludedCommands →
        ∃ before after, Adds actions i site before entry after ∧ before.history = past ∧
          Untampered site before entry := by
  intro i site conn hconn past entry later epoch index frame name hsplit hkeeps hindex hparse hname
    hprotected
  rcases entry_accounted h hconn hsplit with ⟨before, after, hadds, hpast, haccount⟩
  refine ⟨before, after, hadds, hpast, ?_⟩
  rcases haccount.answered epoch index hindex with ⟨found, hfound, hconfig, hanswered⟩
  rw [hparse] at hfound
  obtain rfl := Except.ok.inj hfound
  apply hanswered.untampered hparse rfl
  apply spared_of_filtered
  show before.config.shouldMutateCommand frame.commandName = false
  rw [← hconfig, (kept_replayed.each_run h).config_eq hconn hsplit, hname]
  apply EvilConfig.shouldMutateCommand_of_excluded _ hprotected
  apply excluded_settingsAfter
  intro request hrequest
  rcases List.mem_map.mp hrequest with ⟨earlier, hearlier, rfl⟩
  exact hkeeps earlier hearlier

/-- AUTH under settings that change every reply. -/
theorem excluded_untampered_auth :
    ∃ system site conn first entry, Machine.run step {} [.accept .acknowledging [],
      .act 0 (.inline "DEBUG EVIL MODE MUTATE" rfl),
      .act 0 (.inline "AUTH x" rfl), .act 0 .turn] = some system ∧
      system.connections[0]? = some (site, conn) ∧ conn.history = [first, entry] ∧
      entry.config.mode = .mutate ∧ ∃ before, Untampered site before entry := by
  have hrun : (Machine.run step {} [.accept .acknowledging [],
      .act 0 (.inline "DEBUG EVIL MODE MUTATE" rfl),
      .act 0 (.inline "AUTH x" rfl), .act 0 .turn]).any
        (fun system => system.connections[0]?.any fun member =>
          member.2.history.map (·.request) =
            [asBytes "DEBUG EVIL MODE MUTATE\r\n", asBytes "AUTH x\r\n"] ∧
          member.2.history.map (·.index) = [none, some (0, 0)] ∧
          member.2.history.map (·.config.mode) = [.off, .mutate]) = true := by
    decide +kernel
  rcases (Option.any_eq_true _ _).mp hrun with ⟨system, hsystem, hstate⟩
  rcases (Option.any_eq_true _ _).mp hstate with ⟨⟨site, conn⟩, hconn, hstate⟩
  rw [decide_eq_true_iff] at hstate
  rcases hstate with ⟨hrequests, hindexes, hmodes⟩
  rcases List.map_eq_cons_iff.mp hrequests with ⟨first, rest, hsplit, hsettings, hrest⟩
  rcases List.map_eq_singleton_iff.mp hrest with ⟨entry, rfl, hrequest⟩
  change conn.history = [first, entry] at hsplit
  obtain ⟨-, hindex⟩ : first.index = none ∧ entry.index = some (0, 0) := by
    simpa [hsplit] using hindexes
  obtain ⟨-, hmode⟩ : first.config.mode = .off ∧ entry.config.mode = .mutate := by
    simpa [hsplit] using hmodes
  have hkept : settingsRequest (asBytes "DEBUG EVIL MODE MUTATE\r\n") =
      some (.evil ["DEBUG", "EVIL", "MODE", "MUTATE"]) := by
    rfl
  have hfirst : ∀ earlier ∈ [first], ¬ replacesExclusions earlier.request := by
    intro earlier hearlier
    rw [List.mem_singleton.mp hearlier, hsettings]
    rintro ⟨settings, hfound, hreplaces⟩
    rw [hkept] at hfound
    cases hfound
    exact absurd (show toAsciiUppercase "MODE" = "EXCLUDE" from hreplaces) (by decide)
  have hparse : parseFrame entry.request = .ok (.inline [asBytes "AUTH", asBytes "x"]) := by
    rw [hrequest]
    decide +kernel
  rcases excluded_untampered _ system hsystem 0 site conn hconn [first] entry [] 0 0 _ "AUTH" hsplit
    hfirst hindex hparse (by decide +kernel) (by decide) with ⟨before, after, -, -, huntampered⟩
  exact ⟨system, site, conn, first, entry, hsystem, hconn, hsplit, hmode, before, huntampered⟩

end System

end EvilResp
