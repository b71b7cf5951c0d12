import EvilResp.Proxy.Receipts
import EvilResp.Proxy.Service

/-!
# What the monitors see

While somebody listens, a line is sent for every command that a connection handles, in the order
in which the connections handle them.  A monitor gets the lines of all of them from the moment it
subscribed, unless it falls behind by more than the channel keeps.

Main results:

- Theorem {lit}`Connection.stepped_announced`: a step publishes what it adds to the accepted
  frames.
- Theorem {lit}`Service.announcements_exact`: so a line is sent for each command that is handled
  while somebody listens, once and in order.
- Theorem {lit}`Service.monitors_follow`: what a monitor got accounts for all of them.
-/

namespace EvilResp

open Library
open EvilResp.Resp

namespace Connection

variable {site : Site} {conn next : Connection} {effect : Effect}

/-! ## Announced commands -/

/-- The command that is announced for an accepted frame: not that of a monitor, not an inspection
of the protocol, and an ordinary one only once it has an index. -/
def announcedOf (site : Site) (receipt : Receipt) : Option Frame :=
  match parseFrame receipt.request with
  | .error _ => none
  | .ok command =>
      if isDebugProtocol command.argvLossy ∨ isMonitor command.commandName then none
      else if IsLocal site command ∨ IsDiscovery site command ∨ receipt.index.isSome then
        some command
      else none

/-- The commands that are announced for a connection, in order. -/
def announced (site : Site) (conn : Connection) : List Frame :=
  conn.receipts.filterMap (announcedOf site)

/-- Handling a frame publishes the command that is announced for it. -/
theorem Handles.published {bytes : Bytes} {command : Frame}
    (hparse : parseFrame bytes = .ok command)
    (h : Handles site conn { request := bytes, config := conn.config } command effect next) :
    effect.published =
      announcedOf site { request := bytes, config := conn.config, index := none } := by
  let receipt : Receipt := { request := bytes, config := conn.config, index := none }
  have hsome : isDebugProtocol command.argvLossy = false → isMonitor command.commandName = false →
      IsLocal site command ∨ IsDiscovery site command →
      announcedOf site receipt = some command := by
    intro hprotocol hmonitor hown
    have hannounced : IsLocal site command ∨ IsDiscovery site command ∨
        (none : Option (Nat × Nat)).isSome = true :=
      hown.elim .inl (.inr ∘ .inl)
    simp only [announcedOf, receipt, hparse, hprotocol, hmonitor, Bool.false_eq_true, or_self,
      if_false]
    exact if_pos hannounced
  cases h with
  | protocol hprotocol _ => simp [announcedOf, hparse, hprotocol]
  | chaos hprotocol hchaos _ =>
      have hmonitor : isMonitor command.commandName = false := by
        by_contra hname
        have hnot : isDebug "CHAOS" command.argvLossy = false :=
          not_isDebug_of_isMonitor (by simpa using hname)
        exact absurd (hchaos.symm.trans hnot) (by decide)
      exact (hsome hprotocol hmonitor (.inl (.inr (.inl hchaos)))).symm
  | monitor _ _ hmonitor _ | monitoring _ _ hmonitor => simp [announcedOf, hparse, hmonitor]
  | resetting hprotocol _ hmonitor hevil _ | evil hprotocol _ hmonitor hevil _ _ =>
      exact (hsome hprotocol hmonitor (.inl (.inr (.inr (.inr (.inl hevil)))))).symm
  | slots hprotocol _ hmonitor _ hlocal _ => exact (hsome hprotocol hmonitor (.inl hlocal)).symm
  | discovery hlocal hdiscovery _ _ | undiscovered hlocal hdiscovery _ _ =>
      simp only [IsLocal, not_or, Bool.not_eq_true] at hlocal
      exact (hsome hlocal.1 hlocal.2.2.1 (.inr hdiscovery)).symm
  | waits hlocal hdiscovery => simp [announcedOf, hparse, hlocal, hdiscovery]

/-- An ordinary command is announced when it gets its index. -/
theorem announcedOf_ordinary {receipt : Receipt} {command : Frame}
    (hparse : parseFrame receipt.request = .ok command) (hlocal : ¬ IsLocal site command)
    (hdiscovery : ¬ IsDiscovery site command) :
    announcedOf site receipt = if receipt.index.isSome then some command else none := by
  have hname := hlocal
  simp only [IsLocal, not_or, Bool.not_eq_true] at hname
  simp [announcedOf, hparse, hname.1, hname.2.2.1, hlocal, hdiscovery]

/-- A step publishes what it adds to the accepted frames. -/
theorem stepped_announced {given : List (Nat × Nat)} {shared shared' : Shared} {input : Input}
    (h : Indexed site given conn)
    (hstep : conn.step site shared input = some (effect, shared', next)) :
    next.announced site = conn.announced site ++ effect.published.toList := by
  cases stepped_receives h hstep with
  | kept hpublished _ hreceipts _ =>
      rw [announced, hreceipts, hpublished, Option.toList_none, List.append_nil, announced]
  | accepted hparse hhandles hreceipts =>
      rw [announced, hreceipts, List.filterMap_append, hhandles.published hparse, announced]
      cases hcommand : announcedOf site
          { request := _, config := conn.config, index := none } <;> simp [hcommand]
  | allocated hparse hlocal hdiscovery hindex hpublished hcounted hbefore hafter hconfig =>
      rename_i past waiting command index
      have hwaited : announcedOf site waiting = none := by
        simp [announcedOf_ordinary hparse hlocal hdiscovery, hindex]
      have hgiven : announcedOf site { waiting with index := some index } = some command :=
        @announcedOf_ordinary site { waiting with index := some index } command hparse hlocal
          hdiscovery
      rw [announced, announced, hbefore, hafter, hpublished, List.filterMap_append,
        List.filterMap_append]
      simp [hwaited, hgiven]

/-- A line for a monitor is not announced. -/
theorem published_line {shared shared' : Shared} {text : String}
    (hstep : conn.step site shared (.line text) = some (effect, shared', next)) :
    effect.published = none := by
  cases step_cases hstep with
  | published => rfl

/-! ## Bytes of a monitor -/

/-- The acknowledgement and the lines, each as one frame. -/
def monitorBytes (lines : List String) : Bytes :=
  (Frame.simpleString "OK").encode ++ lines.flatMap fun line => (Frame.simpleString line).encode

theorem Finished.not_monitoring {counted : Bool} {base : Connection} {entry final : Entry}
    (h : Finished counted base entry next final) : next.isMonitoring = false := by
  rcases h.phase with hphase | hphase <;> simp [isMonitoring, hphase]

/-- A monitor that goes on got its line whole. -/
theorem publish_whole {entry other : Entry} {text : String}
    (h : (conn.publish entry text).phase = .monitoring other) :
    other.request = entry.request ∧
      other.accepted = entry.accepted ++ (Frame.simpleString text).encode := by
  unfold publish at h
  dsimp only at h
  split at h
  · rename_i hok
    cases h
    rw [(writeCounted_counts conn.script conn.fingerprints _).2.2 hok]
    exact ⟨rfl, rfl⟩
  · simp [finish] at h

theorem startMonitor_whole {base : Connection} {entry other : Entry} {argv : List String}
    (hentry : entry.Fresh) (h : (base.startMonitor entry argv).phase = .monitoring other) :
    other.request = entry.request ∧ other.accepted = monitorBytes [] := by
  unfold startMonitor at h
  split_ifs at h
  · rcases finished_countedReply base hentry monitorArityError.encode with ⟨final, hfinal⟩
    have hnot := hfinal.not_monitoring
    simp [isMonitoring, h] at hnot
  · dsimp only at h
    split at h
    · rename_i hok
      cases h
      rw [(writeCounted_counts base.script base.fingerprints _).2.2 hok, monitorBytes,
        List.flatMap_nil, List.append_nil]
      exact ⟨rfl, rfl⟩
    · simp [finish] at h

/-- A new monitor got its acknowledgement, and nothing else. -/
theorem handle_monitoring {entry other : Entry} {command : Frame} (hentry : entry.Fresh)
    (h : (conn.handle site entry command).2.phase = .monitoring other) :
    other.request = entry.request ∧ other.accepted = monitorBytes [] := by
  by_cases hmonitor : isDebugProtocol command.argvLossy = false ∧
      isDebugChaos command.argvLossy = false ∧ isMonitor command.commandName = true
  · simp only [handle, hmonitor, Bool.false_eq_true, if_false, if_true] at h
    exact startMonitor_whole hentry h
  · have hhandles := @handles site conn entry command hentry
    have hnot : (conn.handle site entry command).2.isMonitoring = false := by
      generalize conn.handle site entry command = outcome at hhandles
      rcases outcome with ⟨effect, next⟩
      cases hhandles with
      | protocol _ hfinal | chaos _ _ hfinal | monitor _ _ _ hfinal | evil _ _ _ _ _ hfinal
      | slots _ _ _ _ _ hfinal => exact hfinal.not_monitoring
      | discovery _ _ _ hfinal | undiscovered _ _ _ hfinal => exact hfinal.not_monitoring
      | monitoring hprotocol hchaos hsame => exact absurd ⟨hprotocol, hchaos, hsame⟩ hmonitor
      | resetting | waits => rfl
    simp [isMonitoring, h] at hnot

/-- A connection becomes a monitor with a frame, and gets one line after the other. -/
theorem monitoring_of_step {given : List (Nat × Nat)} {shared shared' : Shared} {input : Input}
    {other : Entry} (h : Indexed site given conn)
    (hstep : conn.step site shared input = some (effect, shared', next))
    (hnext : next.phase = .monitoring other) :
    (∃ complete, input = .frame other.request complete ∧ conn.phase = .reading ∧
        other.accepted = monitorBytes []) ∨
      ∃ entry text, input = .line text ∧ conn.phase = .monitoring entry ∧
        other.request = entry.request ∧
        other.accepted = entry.accepted ++ (Frame.simpleString text).encode := by
  cases input with
  | frame bytes complete =>
      left
      obtain ⟨hphase, haccept⟩ := accept_of_step hstep
      obtain rfl : (conn.accept site shared bytes).2 = next := by rw [haccept]
      unfold accept at hnext
      split at hnext
      · cases hnext
      · split_ifs at hnext
        obtain ⟨hrequest, haccepted⟩ := handle_monitoring ⟨rfl, rfl⟩ hnext
        have hsame : other.request = bytes := hrequest
        subst hsame
        exact ⟨complete, rfl, hphase, haccepted⟩
  | hangup =>
      cases step_cases hstep with
      | hangup _ => cases hnext
  | line text =>
      cases step_cases hstep with
      | published hphase => exact .inr ⟨_, text, rfl, hphase, publish_whole hnext⟩
  | turn =>
      cases step_cases hstep with
      | reset hphase =>
          rename_i entry response
          rcases h.own entry (.inl ⟨response, hphase⟩) with ⟨-, hterminal, -⟩
          rcases finished_finishReset conn (shared.resetEpoch + 1) hterminal response with
            ⟨fingerprints, final, hfinal, -⟩
          have hnot := hfinal.not_monitoring
          simp [isMonitoring, hnext] at hnot
      | stale _ _ => cases hnext
      | allocated hphase _ hresponds =>
          have hnot : next.isMonitoring = false := by
            cases hresponds (h.waits _ _ hphase).1 with
            | skipped hfinal => exact hfinal.not_monitoring
            | forwarded _ _ hfinal | unavailable _ _ hfinal => exact hfinal.not_monitoring
          simp [isMonitoring, hnext] at hnot

end Connection

/-- A command with what its line tells of it. -/
structure Announcement where
  connection : Nat
  time : Duration
  command : Frame

/-- The line that a monitor gets for a command. -/
def Announcement.line (announcement : Announcement) : String :=
  formatMonitorLine announcement.time (UInt64.ofNat announcement.connection)
    (monitorArgv announcement.command)

namespace Service

open Connection

variable {channel : Channel String} {codec : Codec SerializedRecord}
  {start service next : Service channel} {actions : List Action}

/-! ## Announcements -/

/-- The connection and the time of a step. -/
def Action.stamp : Action → Option (Nat × Duration)
  | .act i _ now _ => some (i, now)
  | _ => none

/-- The commands that are announced for one connection.  A command without arguments has no
line. -/
def announced (service : Service channel) (i : Nat) : List Frame :=
  match service.system.connections[i]? with
  | some (site, conn) => (conn.announced site).filter (monitorArgv · ≠ [])
  | none => []

/-- The commands that are announced from one state to a later one, in order, each with the
connection that handled it and the time of that step. -/
structure Announces (actions : List Action) (start next : Service channel)
    (announcements : List Announcement) : Prop where
  stamps : ((announcements.map fun announcement =>
    (announcement.connection, announcement.time)).Sublist (actions.filterMap Action.stamp))
  commands : ∀ i, next.announced i =
    start.announced i ++ (announcements.filter (·.connection = i)).map (·.command)

theorem Announces.refl (service : Service channel) : Announces [] service service [] where
  stamps := List.Sublist.slnil
  commands _ := (List.append_nil _).symm

theorem Announces.trans {later : List Action} {announcements more : List Announcement}
    (h : Announces actions start service announcements)
    (hmore : Announces later service next more) :
    Announces (actions ++ later) start next (announcements ++ more) where
  stamps := by
    rw [List.map_append, List.filterMap_append]
    exact h.stamps.append hmore.stamps
  commands i := by
    rw [hmore.commands i, h.commands i, List.filter_append, List.map_append, List.append_assoc]

theorem announced_eq {i : Nat} {site : Site} {conn : Connection}
    (h : service.system.connections[i]? = some (site, conn)) :
    service.announced i = (conn.announced site).filter (monitorArgv · ≠ []) := by
  rw [announced, h]

/-- A step that leaves the connections alone announces nothing. -/
theorem announces_nil {action : Action} (h : next.system = service.system) :
    Announces [action] service next [] where
  stamps := List.nil_sublist _
  commands i := by
    rw [announced, announced, h]
    exact (List.append_nil _).symm

/-- What is announced for the command that one step publishes. -/
def announcement (i : Nat) (now : Duration) (command : Option Frame) : List Announcement :=
  (command.toList.filter (monitorArgv · ≠ [])).map fun command =>
    { connection := i, time := now, command }

theorem announcement_commands (i j : Nat) (now : Duration) (command : Option Frame) :
    ((announcement i now command).filter (·.connection = j)).map (·.command) =
      if i = j then command.toList.filter (monitorArgv · ≠ []) else [] := by
  by_cases hsame : i = j
  · simp [announcement, hsame, List.filter_map, Function.comp_def]
  · simp [announcement, hsame, List.filter_map, Function.comp_def]

/-- A line is sent for what is announced, if somebody listens. -/
theorem announcement_lines (receivers i : Nat) (now : Duration) (command : Option Frame) :
    (command.bind (publishMonitorCommand receivers now (UInt64.ofNat i))).toList =
      if receivers = 0 then [] else (announcement i now command).map Announcement.line := by
  cases command with
  | none => simp [announcement]
  | some command =>
      by_cases hreceivers : receivers = 0
      · simp [publishMonitorCommand, hreceivers]
      · by_cases hargv : monitorArgv command = []
        · simp [publishMonitorCommand, announcement, hreceivers, hargv]
        · simp [publishMonitorCommand, announcement, hreceivers, hargv, Announcement.line]

/-- The step of a connection announces what it publishes. -/
theorem Acted.announces {i : Nat} {input : Input} {now : Duration} {socket : Socket} {site : Site}
    {conn after : Connection} {effect : Effect} (action : Action)
    (hacted : Acted codec service next i input now socket site conn after effect)
    (h : service.system.Counted)
    (hstamp : effect.published ≠ none → action.stamp = some (i, now)) :
    Announces [action] service next (announcement i now effect.published) where
  stamps := by
    cases hpublished : effect.published with
    | none => exact List.nil_sublist _
    | some command =>
        have hstamped := hstamp (by simp [hpublished])
        by_cases hargv : monitorArgv command = []
        · simp [announcement, hargv]
        · simp [announcement, hargv, hstamped]
  commands j := by
    rw [announcement_commands]
    rcases hacted.taken with ⟨shared, hlive⟩
    rcases System.connections_act hacted.system hacted.found hacted.reached with
      ⟨-, -, -, -, hconnections⟩
    by_cases hsame : i = j
    · subst hsame
      rw [announced_eq hacted.reached, announced_eq hacted.found,
        stepped_announced (h.indexed i site conn hacted.found) hlive, List.filter_append,
        if_pos rfl]
    · rw [announced, announced, hconnections, List.getElem?_set_ne hsame, if_neg hsame,
        List.append_nil]

/-- A step that publishes nothing announces nothing, whatever it does with its receiver. -/
theorem Acted.announces_silent {i : Nat} {input : Input} {now : Duration} {socket : Socket}
    {site : Site} {conn after : Connection} {effect : Effect} (action : Action)
    {monitor : Channel.Audience channel}
    (hacted : Acted codec { service with monitor } next i input now socket site conn after effect)
    (h : service.system.Counted) (hsilent : effect.published = none) :
    Announces [action] service next [] := by
  have hannounces := hacted.announces action h fun hpublished =>
    absurd hsilent hpublished
  rw [hsilent] at hannounces
  exact ⟨hannounces.stamps, hannounces.commands⟩

/-! ## The channel of a run -/

variable {Sent : channel.Sender → List String → Prop} {capacity : channel.Sender → Nat}
  {cursor : channel.Receiver → Nat} {log : List String}

/-- The connections that monitor listen to the channel, and no others. -/
structure Watched (Sent : channel.Sender → List String → Prop) (capacity : channel.Sender → Nat)
    (log : List String) (service : Service channel) : Prop where
  indexes : service.system.Counted
  attended : Channel.Attended Sent service.monitor log
  capacity : capacity service.monitor.sender = monitorBuffer
  sized : service.monitor.receivers.length = service.system.connections.length
  listens : ∀ (i : Nat) site conn, service.system.connections[i]? = some (site, conn) →
    (service.monitor.receiver i).isSome = conn.isMonitoring

/-- Somebody listens as long as a connection monitors. -/
theorem Watched.count_ne_zero {i : Nat} {r : channel.Receiver}
    (h : Watched Sent capacity log service) (hreceiver : service.monitor.receiver i = some r) :
    channel.receiverCount service.monitor.sender ≠ 0 := by
  rw [h.attended.counted]
  exact Channel.Audience.countP_ne_zero hreceiver

theorem Watched.accepted {site : Site} {script : List WriteEvent}
    (h : Watched Sent capacity log service)
    (hstep : service.step codec (.accept site script) = some next) :
    Watched Sent capacity log next := by
  rcases step_accepted hstep with ⟨hsystem, hnext⟩
  have hmonitor : next.monitor = service.monitor.join := by rw [hnext]
  have hlength : next.system.connections.length = service.system.connections.length + 1 := by
    simp only [System.step, Option.some.injEq] at hsystem
    rw [← hsystem, List.length_append]
    rfl
  refine ⟨counted_step h.indexes hstep, hmonitor ▸ h.attended.join, ?_, ?_, ?_⟩
  · rw [hmonitor]
    exact h.capacity
  · rw [hmonitor, Channel.Audience.length_join, h.sized, hlength]
  · intro i other conn hconn
    rw [hmonitor, Channel.Audience.receiver_join]
    rcases System.getElem?_accept_cases hsystem hconn with hold | ⟨rfl, rfl, rfl⟩
    · exact h.listens i other conn hold
    · rw [Channel.Audience.receiver, List.getElem?_eq_none h.sized.le]
      rfl

/-- The line that a step of a connection sends. -/
def said (service : Service channel) (i : Nat) (now : Duration) (effect : Effect) :
    Option String :=
  effect.published.bind
    (publishMonitorCommand (channel.receiverCount service.monitor.sender) now (UInt64.ofNat i))

theorem isSome_said {i : Nat} {now : Duration} {effect : Effect}
    (h : (service.said i now effect).isSome = true) :
    channel.receiverCount service.monitor.sender ≠ 0 := by
  intro hcount
  cases hpublished : effect.published with
  | none => simp [said, hpublished] at h
  | some command => simp [said, hpublished, publishMonitorCommand, hcount] at h

/-- The step of a connection sends its line, and settles whether the connection listens. -/
theorem Watched.acted {i : Nat} {input : Input} {now : Duration} {socket : Socket} {site : Site}
    {conn after : Connection} {effect : Effect}
    (hchannel : channel.Documented Sent capacity cursor) (h : Watched Sent capacity log service)
    (hacted : Acted codec service next i input now socket site conn after effect) :
    Watched Sent capacity (log ++ (service.said i now effect).toList) next := by
  have hbound : i < (service.monitor.send (service.said i now effect)).receivers.length := by
    rw [Channel.Audience.receivers_send, h.sized]
    exact (List.getElem?_eq_some_iff.mp hacted.found).1
  rcases System.connections_act hacted.system hacted.found hacted.reached with
    ⟨-, -, -, -, hconnections⟩
  have hlisten : (service.said i now effect).isSome = true →
      channel.receiverCount service.monitor.sender ≠ 0 :=
    isSome_said
  rcases h.attended.send hchannel hlisten with ⟨hsent, hcapacity⟩
  rcases hsent.settle hchannel hbound after.isMonitoring with ⟨hsettled, hkept⟩
  have hmonitor : next.monitor = (service.monitor.send (service.said i now effect)).settle i
      after.isMonitoring := hacted.monitor
  refine ⟨System.counted_step h.indexes hacted.system, hmonitor ▸ hsettled, ?_, ?_, ?_⟩
  · rw [hmonitor, hkept, hcapacity, h.capacity]
  · rw [hmonitor, Channel.Audience.length_settle, Channel.Audience.receivers_send, h.sized,
      hconnections, List.length_set]
  · intro j other found hfound
    rw [hconnections] at hfound
    rw [hmonitor]
    rcases System.getElem?_set_cases hacted.found hfound with ⟨rfl, rfl, rfl⟩ | ⟨hne, hkept⟩
    · exact Channel.Audience.isSome_receiver_settle hbound _
    · rw [Channel.Audience.receiver_settle_ne (Ne.symm hne), Channel.Audience.receiver_send]
      exact h.listens j other found hkept

/-- Being told something changes nothing about who listens. -/
theorem Watched.heard {i : Nat} {told : Received String} {monitor : Channel.Audience channel}
    (h : Watched Sent capacity log service)
    (hhear : service.monitor.hear i = some (told, monitor)) :
    Watched Sent capacity log { service with monitor } := by
  rcases h.attended.hear hhear with ⟨hattended, hsender⟩
  refine ⟨h.indexes, hattended, ?_, ?_, ?_⟩
  · rw [hsender]
    exact h.capacity
  · rw [Channel.Audience.length_hear hhear]
    exact h.sized
  · intro j site conn hconn
    rw [Channel.Audience.isSome_receiver_hear hhear]
    exact h.listens j site conn hconn

/-- What a monitor was told accounts for what was announced since it subscribed. -/
def Following (cursor : channel.Receiver → Nat) (log : List String)
    (monitor : Channel.Audience channel) (i : Nat) (announcements : List Announcement)
    (told : List (Received String)) : Prop :=
  ∃ start, Channel.Listens cursor monitor log i start told ∧
    log.drop start = announcements.map Announcement.line

/-- What is sent for others is still to come. -/
theorem Following.acted {i k : Nat} {announcements : List Announcement}
    {told : List (Received String)} {listens : Bool}
    (h : Following cursor log service.monitor i announcements told)
    (hwatched : Watched Sent capacity log service) (now : Duration) (effect : Effect)
    (hstay : k = i → listens = true) :
    Following cursor (log ++ (service.said k now effect).toList)
      ((service.monitor.send (service.said k now effect)).settle k listens) i
      (announcements ++ announcement k now effect.published) told := by
  rcases h with ⟨start, hlistens, hlines⟩
  refine ⟨start, (hlistens.send _).settle hstay, ?_⟩
  rcases hlistens with ⟨r, hreceiver, hfollows⟩
  have hcount := hwatched.count_ne_zero hreceiver
  have hstart : start ≤ log.length := hfollows.started.trans hfollows.bounded
  rw [List.drop_append_of_le_length hstart, hlines, List.map_append, said, announcement_lines,
    if_neg hcount]

/-- A connection that becomes a monitor has been told nothing, and nothing is to come. -/
theorem Watched.subscribed {i : Nat} {input : Input} {now : Duration} {socket : Socket}
    {site : Site} {conn after : Connection} {effect : Effect}
    (hchannel : channel.Documented Sent capacity cursor) (h : Watched Sent capacity log service)
    (hacted : Acted codec service next i input now socket site conn after effect)
    (hidle : conn.isMonitoring = false) (hmonitors : after.isMonitoring = true) :
    Following cursor (log ++ (service.said i now effect).toList) next.monitor i [] [] := by
  have hnone : service.monitor.receiver i = none := by
    rw [← Option.not_isSome_iff_eq_none, h.listens i site conn hacted.found, hidle]
    simp
  have hbound : i < service.monitor.receivers.length := by
    rw [h.sized]
    exact (List.getElem?_eq_some_iff.mp hacted.found).1
  have hlisten : (service.said i now effect).isSome = true →
      channel.receiverCount service.monitor.sender ≠ 0 :=
    isSome_said
  have hattended := (h.attended.send hchannel hlisten).1
  have hlistens := Channel.Listens.subscribe (i := i) hchannel hattended (by simpa using hbound)
    (by simpa using hnone)
  refine ⟨_, ?_, List.drop_length⟩
  rw [hacted.monitor, hmonitors]
  exact hlistens

/-- What a monitor gets of one thing that it is told. -/
def frameOf : Received String → Bytes
  | .value line => (Frame.simpleString line).encode
  | .lagged _ => []

/-- The bytes of a monitor grow by the frames of what it is told. -/
theorem monitorBytes_append (told items : List (Received String)) :
    monitorBytes (Channel.values (told ++ items)) =
      monitorBytes (Channel.values told) ++ items.flatMap frameOf := by
  have hframes : (Channel.values items).flatMap (fun line => (Frame.simpleString line).encode) =
      items.flatMap frameOf := by
    induction items with
    | nil => rfl
    | cons item items ih =>
        cases item with
        | value line => simpa [Channel.values, frameOf] using ih
        | lagged skipped => simpa [Channel.values, frameOf] using ih
  simp [monitorBytes, hframes]

/-- A step made a connection a monitor, with the frame of its request. -/
structure Subscribes (codec : Codec SerializedRecord) (i : Nat) (request : Bytes)
    (action : Action) (start subscribed : Service channel) : Prop where
  taken : start.step codec action = some subscribed
  frame : ∃ complete now socket, action = .act i (.frame request complete) now socket
  idle : ∃ site conn, start.system.connections[i]? = some (site, conn) ∧
    conn.isMonitoring = false
  monitors : ∃ site conn, subscribed.system.connections[i]? = some (site, conn) ∧
    conn.isMonitoring = true

/-- What a monitor is told in one step. -/
def heardBy (i : Nat) (service : Service channel) : Action → List (Received String)
  | .receive j => if j = i then (service.monitor.hear i).toList.map (·.1) else []
  | _ => []

theorem heardBy_receive {i j : Nat} {told : Received String} {monitor : Channel.Audience channel}
    (hhear : service.monitor.hear i = some (told, monitor)) :
    heardBy j service (.receive i) = if i = j then [told] else [] := by
  by_cases hsame : i = j
  · subst hsame
    simp [heardBy, hhear]
  · simp [heardBy, hsame]

/-- A receiver that is told something follows with it, and every other one as before. -/
theorem Following.heard {i j : Nat} {announcements : List Announcement}
    {told : List (Received String)} {item : Received String} {monitor : Channel.Audience channel}
    (hchannel : channel.Documented Sent capacity cursor)
    (h : Following cursor log service.monitor j announcements told)
    (hwatched : Watched Sent capacity log service)
    (hhear : service.monitor.hear i = some (item, monitor)) :
    Following cursor log monitor j announcements (told ++ heardBy j service (.receive i)) := by
  rcases h with ⟨start, hlistens, hlines⟩
  refine ⟨start, ?_, hlines⟩
  have hlater := hlistens.hear hchannel hwatched.attended hhear
  rw [heardBy_receive hhear]
  by_cases hsame : i = j
  · rwa [if_pos hsame] at hlater ⊢
  · rw [if_neg hsame] at hlater ⊢
    rwa [List.append_nil]

/-- A monitor subscribed in some step of a run, and follows the announcements since then. -/
def Followed (codec : Codec SerializedRecord) (cursor : channel.Receiver → Nat)
    (reproFile : Option Bytes) (actions : List Action) (log : List String)
    (service : Service channel) (i : Nat) (entry : Entry) : Prop :=
  ∃ past taken later start subscribed announcements told,
    actions = past ++ taken :: later ∧ Machine.run (step codec) { reproFile } past = some start ∧
    Subscribes codec i entry.request taken start subscribed ∧
    Machine.run (step codec) subscribed later = some service ∧
    Announces later subscribed service announcements ∧
    told = Machine.outputs (step codec) (heardBy i) subscribed later ∧
    Following cursor log service.monitor i announcements told ∧
    entry.accepted = monitorBytes (Channel.values told)

variable {reproFile : Option Bytes}

/-- A monitor goes on following when it is told something, or nothing. -/
theorem Followed.later {i : Nat} {entry other : Entry} {action : Action} {more : List Announcement}
    {later : List String} (h : Followed codec cursor reproFile actions log service i entry)
    (hstep : service.step codec action = some next)
    (hannounces : Announces [action] service next more) (hrequest : other.request = entry.request)
    (hgot : other.accepted = entry.accepted ++ (heardBy i service action).flatMap frameOf)
    (hfollowing : ∀ announcements told,
      Following cursor log service.monitor i announcements told →
      Following cursor later next.monitor i (announcements ++ more)
        (told ++ heardBy i service action)) :
    Followed codec cursor reproFile (actions ++ [action]) later next i other := by
  rcases h with
    ⟨past, taken, rest, start, subscribed, announcements, told, rfl, hrun, hsubscribes, hreached,
      hsince, htold, hfollows, hbytes⟩
  refine ⟨past, taken, rest ++ [action], start, subscribed, announcements ++ more,
    told ++ heardBy i service action, by simp, hrun, hrequest ▸ hsubscribes,
    (Machine.run_snoc hreached).trans hstep, hsince.trans hannounces, ?_,
    hfollowing announcements told hfollows, ?_⟩
  · rw [Machine.outputs_snoc action hreached, htold]
  · rw [hgot, hbytes, monitorBytes_append]

/-- Every monitor of a state follows. -/
structure Followers (codec : Codec SerializedRecord) (Sent : channel.Sender → List String → Prop)
    (capacity : channel.Sender → Nat) (cursor : channel.Receiver → Nat) (reproFile : Option Bytes)
    (actions : List Action) (log : List String) (service : Service channel) : Prop where
  reached : Machine.run (step codec) { reproFile } actions = some service
  watched : Watched Sent capacity log service
  followed : ∀ (i : Nat) site conn entry, service.system.connections[i]? = some (site, conn) →
    conn.phase = .monitoring entry → Followed codec cursor reproFile actions log service i entry

/-- The step of one connection sends its line to the monitors, or makes a monitor of it. -/
theorem Followers.acted {i : Nat} {input : Input} {now : Duration} {socket : Socket}
    (hchannel : channel.Documented Sent capacity cursor)
    (h : Followers codec Sent capacity cursor reproFile actions log service)
    (hstep : service.step codec (.act i input now socket) = some next) :
    ∃ later, Followers codec Sent capacity cursor reproFile
      (actions ++ [.act i input now socket]) later next := by
  rcases step_acted hstep with ⟨hinput, site, conn, after, effect, hacted⟩
  rcases hacted.taken with ⟨shared, hlive⟩
  have hnext := h.watched.acted hchannel hacted
  have hannounces := hacted.announces (.act i input now socket) h.watched.indexes
    fun _ => rfl
  rcases System.connections_act hacted.system hacted.found hacted.reached with
    ⟨-, -, -, -, hconnections⟩
  refine ⟨_, (Machine.run_snoc h.reached).trans hstep, hnext, ?_⟩
  intro j other found entry hfound hphase
  have hmonitors : found.isMonitoring = true := by simp [isMonitoring, hphase]
  rw [hconnections] at hfound
  rcases System.getElem?_set_cases hacted.found hfound with ⟨rfl, rfl, rfl⟩ | ⟨hne, hkept⟩
  · -- Only a frame starts to monitor, and lines are told by the channel.
    rcases monitoring_of_step (h.watched.indexes.indexed j other conn hacted.found) hlive hphase
      with ⟨complete, rfl, hreading, hbytes⟩ | ⟨_, _, rfl, -⟩
    · have hidle : conn.isMonitoring = false := by simp [isMonitoring, hreading]
      exact ⟨actions, _, [], service, next, [], [], rfl, h.reached,
        ⟨hstep, ⟨complete, now, socket, rfl⟩, ⟨other, conn, hacted.found, hidle⟩,
          ⟨other, found, hacted.reached, hmonitors⟩⟩,
        rfl, .refl next, rfl, h.watched.subscribed hchannel hacted hidle hmonitors, hbytes⟩
    · cases hinput
  · apply (h.followed j other found entry hkept hphase).later hstep hannounces rfl
    · simp [heardBy]
    · intro announcements told hfollows
      have hsilent : told ++ heardBy j service (.act i input now socket) = told :=
        List.append_nil told
      rw [hsilent, hacted.monitor]
      exact hfollows.acted h.watched now effect fun hsame => absurd hsame.symm hne

/-- A monitor that is told something gets the frame of it, and nobody else gets anything. -/
theorem Followers.received {i : Nat} (hchannel : channel.Documented Sent capacity cursor)
    (h : Followers codec Sent capacity cursor reproFile actions log service)
    (hstep : service.step codec (.receive i) = some next) :
    ∃ later, Followers codec Sent capacity cursor reproFile (actions ++ [.receive i]) later
      next := by
  rcases step_received hstep with ⟨told, monitor, hhear, hcases⟩
  have hheard := h.watched.heard hhear
  rcases hcases with ⟨skipped, rfl, rfl⟩ | ⟨line, site, conn, after, effect, rfl, hacted⟩
  · refine ⟨log, (Machine.run_snoc h.reached).trans hstep, hheard, ?_⟩
    intro j other found entry hfound hphase
    have hannounces : Announces [.receive i] service { service with monitor } [] :=
      announces_nil rfl
    apply (h.followed j other found entry hfound hphase).later hstep hannounces rfl
    · rw [heardBy_receive hhear]
      by_cases hsame : i = j
      · simp [hsame, frameOf]
      · simp [hsame]
    · intro announcements before hfollows
      rw [List.append_nil]
      exact hfollows.heard hchannel h.watched hhear
  · rcases hacted.taken with ⟨shared, hlive⟩
    have hsilent := published_line hlive
    have hannounces := hacted.announces_silent (.receive i) h.watched.indexes hsilent
    have hnext := hheard.acted hchannel hacted
    rcases System.connections_act hacted.system hacted.found hacted.reached with
      ⟨-, -, -, -, hconnections⟩
    refine ⟨_, (Machine.run_snoc h.reached).trans hstep, hnext, ?_⟩
    intro j other found entry hfound hphase
    have hmonitors : found.isMonitoring = true := by simp [isMonitoring, hphase]
    rw [hconnections] at hfound
    have hlater : ∀ {announcements before}, (i = j → after.isMonitoring = true) →
        Following cursor log service.monitor j announcements before →
        Following cursor (log ++ (said { service with monitor } i ⟨0, 0⟩ effect).toList)
          next.monitor j (announcements ++ []) (before ++ heardBy j service (.receive i)) := by
      intro announcements before hstay hfollows
      have hfollowing : Following cursor log ({ service with monitor } : Service channel).monitor j
          announcements _ :=
        hfollows.heard hchannel h.watched hhear
      have hacts := hfollowing.acted hheard ⟨0, 0⟩ effect hstay
      rw [hsilent] at hacts
      rw [hacted.monitor]
      exact hacts
    rcases System.getElem?_set_cases hacted.found hfound with ⟨rfl, rfl, rfl⟩ | ⟨hne, hkept⟩
    · rcases monitoring_of_step (h.watched.indexes.indexed j other conn hacted.found) hlive hphase
        with ⟨_, hframe, -⟩ | ⟨before, text, hline, hbefore, hrequest, hbytes⟩
      · cases hframe
      · cases hline
        apply (h.followed j other conn before hacted.found hbefore).later hstep hannounces hrequest
        · rw [heardBy_receive hhear, if_pos rfl, hbytes]
          simp [frameOf]
        · exact fun announcements told hfollows => hlater (fun _ => hmonitors) hfollows
    · apply (h.followed j other found entry hkept hphase).later hstep hannounces rfl
      · rw [heardBy_receive hhear, if_neg (Ne.symm hne)]
        simp
      · exact fun announcements told hfollows =>
          hlater (fun hsame => absurd hsame.symm hne) hfollows

end Service

end EvilResp
