import EvilResp.Delivery.Fault
import EvilResp.Library.Audience
import EvilResp.Library.Broadcast
import EvilResp.Proxy.Monitor
import EvilResp.Proxy.Repro
import EvilResp.Proxy.Stats
import EvilResp.Proxy.System

/-!
# The whole service

All connections with everything that they share: the counters of a reset, the statistics, the
channel to the monitors and the reproduction file.  What a step of a connection publishes, counts
and records is its effect on the rest.  A monitor gets its lines from the channel, and nothing
else writes to it.  The channel and the serializer of the records are not part of the source.

Main results:

- Theorem {lit}`Service.step_acted` and theorem {lit}`Service.step_received`: what one step
  does to every part of the state.
- Theorem {lit}`Service.system_run`: whatever is observed, the connections take the steps they
  take without it.
-/

namespace EvilResp

open Library
open EvilResp.Resp

/-! ## What a step shows -/

/-- The number of lines that the channel keeps. -/
def monitorBuffer : Nat := 1024

namespace Connection

/-- The records of the entries that a step finished. -/
def newRecords (conn next : Connection) : List ReproRecord :=
  (next.history.drop conn.history.length).filterMap (·.record)

/-- The connection listens to the channel. -/
def isMonitoring (conn : Connection) : Bool :=
  match conn.phase with
  | .monitoring _ => true
  | _ => false

/-- The task of the connection ended. -/
def isClosed (conn : Connection) : Bool :=
  match conn.phase with
  | .closed => true
  | _ => false

end Connection

/-- The record after the work on the socket, which follows a delivery without failure. -/
def ReproRecord.complete (socket : Socket) (record : ReproRecord) : ReproRecord :=
  match record.deliveryPlan.connectionFault with
  | none => record
  | some fault =>
      if record.deliveryOutcome.errorStage.isSome then record
      else
        { record with
          deliveryOutcome := (finishFault socket {} fault record.deliveryOutcome).outcome }

/-! ## The state -/

/-- Everything that the connections of a process share. -/
structure Service (channel : Channel String) where
  system : System := {}
  stats : Stats := {}
  monitor : Channel.Audience channel := { sender := channel.channel monitorBuffer }
  reproFile : Option Bytes := none

namespace Service

open Connection

variable {channel : Channel String} (codec : Codec SerializedRecord)

/-- Send the line of a command, if somebody listens. -/
def publish (service : Service channel) (i : Nat) (now : Duration) (command : Option Frame) :
    Service channel :=
  { service with
    monitor := service.monitor.send (command.bind
      (publishMonitorCommand (channel.receiverCount service.monitor.sender) now
        (UInt64.ofNat i))) }

/-- Append one line for each record, if there is a file. -/
def append (service : Service channel) (records : List SerializedRecord) : Service channel :=
  { service with
    reproFile := service.reproFile.map fun file => file ++ records.flatMap codec.line }

/-- A monitor listens as long as it monitors, and a closed connection is dropped. -/
def settle (service : Service channel) (i : Nat) (next : Connection) : Service channel :=
  { service with
    stats := if next.isClosed then service.stats.clientDropped else service.stats
    monitor := service.monitor.settle i next.isMonitoring }

/-- A step of one connection, with what it shows. -/
def act (service : Service channel) (i : Nat) (input : Input) (now : Duration) (socket : Socket) :
    Option (Service channel) := do
  let (site, before) ← service.system.connections[i]?
  let (effect, system) ← service.system.act i input
  let (_, after) ← system.connections[i]?
  let records := (before.newRecords after).map fun record =>
    (record.complete { socket with supportsReset := site.resetSupported }).serialized site.lib i
  let shown := (service.publish i now effect.published).append codec records
  some ({ shown with system, stats := shown.stats + effect.counted }.settle i after)

/-- The steps of the service. -/
inductive Action where
  /-- A listener accepts a client. -/
  | accept (site : Site) (script : List WriteEvent)
  /-- A connection takes its next step, at a time and with what its socket will do. -/
  | act (i : Nat) (input : Input) (now : Duration) (socket : Socket)
  /-- A monitor is told the next thing. -/
  | receive (i : Nat)

/-- Lines reach a monitor through the channel only. -/
def isLine : Input → Bool
  | .line _ => true
  | _ => false

/-- One step of the service, if it is possible. -/
def step (service : Service channel) : Action → Option (Service channel)
  | .accept site script => do
      let system ← service.system.step (.accept site script)
      some { service with
        system
        stats := service.stats + Stats.clientConnected
        monitor := service.monitor.join }
  | .act i input now socket => if isLine input then none else service.act codec i input now socket
  | .receive i => do
      let (told, monitor) ← service.monitor.hear i
      match told with
      | .lagged _ => some { service with monitor }
      | .value line => act codec { service with monitor } i (.line line) ⟨0, 0⟩ {}

/-! ## Steps -/

variable {codec} {service next : Service channel}

theorem step_accepted {site : Site} {script : List WriteEvent}
    (h : service.step codec (.accept site script) = some next) :
    service.system.step (.accept site script) = some next.system ∧
      next = { service with
        system := next.system
        stats := service.stats + Stats.clientConnected
        monitor := service.monitor.join } := by
  simp only [step, Option.bind_eq_bind] at h
  rcases Option.bind_eq_some_iff.mp h with ⟨system, hsystem, hnext⟩
  cases hnext
  exact ⟨hsystem, rfl⟩

/-- What a step of a connection does to every part of the state. -/
structure Acted (codec : Codec SerializedRecord) (service next : Service channel) (i : Nat)
    (input : Input) (now : Duration) (socket : Socket) (site : Site) (conn after : Connection)
    (effect : Effect) : Prop where
  found : service.system.connections[i]? = some (site, conn)
  reached : next.system.connections[i]? = some (site, after)
  taken : ∃ shared, conn.step site service.system.shared input = some (effect, shared, after)
  system : service.system.step (.act i input) = some next.system
  stats : next.stats =
    if after.isClosed then (service.stats + effect.counted).clientDropped
    else service.stats + effect.counted
  monitor : next.monitor = (service.publish i now effect.published).monitor.settle i
    after.isMonitoring
  reproFile : next.reproFile = service.reproFile.map fun file => file ++
    ((conn.newRecords after).map fun record =>
      (record.complete { socket with supportsReset := site.resetSupported }).serialized site.lib
        i).flatMap codec.line

theorem act_acted {i : Nat} {input : Input} {now : Duration} {socket : Socket}
    (h : service.act codec i input now socket = some next) :
    ∃ site conn after effect,
      Acted codec service next i input now socket site conn after effect := by
  simp only [act, Option.bind_eq_bind] at h
  rcases Option.bind_eq_some_iff.mp h with ⟨⟨site, conn⟩, hconn, h⟩
  rcases Option.bind_eq_some_iff.mp h with ⟨⟨effect, system⟩, hact, h⟩
  rcases Option.bind_eq_some_iff.mp h with ⟨⟨other, after⟩, hafter, hnext⟩
  have hsystem : service.system.step (.act i input) = some system := by
    rw [System.step, hact]
    rfl
  rcases System.act_cases hact with ⟨site', conn', shared, after', hconn', hlive, rfl⟩
  obtain ⟨rfl, rfl⟩ : site = site' ∧ conn = conn' := by simpa [hconn] using hconn'
  have hself : (service.system.connections.set i (site, after'))[i]? = some (site, after') :=
    List.getElem?_set_self (List.getElem?_eq_some_iff.mp hconn).1
  obtain ⟨rfl, rfl⟩ : site = other ∧ after' = after := by simpa [hself] using hafter
  cases hnext
  exact ⟨site, conn, after', effect, hconn, hself, ⟨shared, hlive⟩, hsystem, rfl, rfl, rfl⟩

theorem step_acted {i : Nat} {input : Input} {now : Duration} {socket : Socket}
    (h : service.step codec (.act i input now socket) = some next) :
    isLine input = false ∧ ∃ site conn after effect,
      Acted codec service next i input now socket site conn after effect := by
  simp only [step] at h
  split at h
  · cases h
  · rename_i hline
    exact ⟨by simpa using hline, act_acted h⟩

/-- What a monitor's turn does: it passes over lines it missed, or takes a step with the next. -/
theorem step_received {i : Nat} (h : service.step codec (.receive i) = some next) :
    ∃ told monitor, service.monitor.hear i = some (told, monitor) ∧
      ((∃ skipped, told = .lagged skipped ∧ next = { service with monitor }) ∨
        ∃ line site conn after effect, told = .value line ∧
          Acted codec { service with monitor } next i (.line line) ⟨0, 0⟩ {} site conn after
            effect) := by
  simp only [step, Option.bind_eq_bind] at h
  rcases Option.bind_eq_some_iff.mp h with ⟨⟨told, monitor⟩, hhear, h⟩
  refine ⟨told, monitor, hhear, ?_⟩
  cases told with
  | lagged skipped =>
      cases h
      exact .inl ⟨skipped, rfl, rfl⟩
  | value line =>
      rcases act_acted h with ⟨site, conn, after, effect, hacted⟩
      exact .inr ⟨line, site, conn, after, effect, rfl, hacted⟩

/-- A step of the service is a step of the connections, or only moves a receiver. -/
theorem step_system {action : Action} (h : service.step codec action = some next) :
    (∃ taken, service.system.step taken = some next.system) ∨ next.system = service.system := by
  cases action with
  | accept site script => exact .inl ⟨_, (step_accepted h).1⟩
  | act i input now socket =>
      obtain ⟨-, site, conn, after, effect, hacted⟩ := step_acted h
      exact .inl ⟨_, hacted.system⟩
  | receive i =>
      obtain ⟨told, monitor, -, hcases⟩ := step_received h
      rcases hcases with ⟨skipped, -, rfl⟩ | ⟨line, site, conn, after, effect, -, hacted⟩
      · exact .inr rfl
      · exact .inl ⟨_, hacted.system⟩

/-- Whatever is observed, the connections take the steps they take without it. -/
theorem system_run {start : Service channel} {actions : List Action}
    (h : Machine.run (step codec) start actions = some service) :
    ∃ taken, Machine.run System.step start.system taken = some service.system := by
  apply Machine.run_invariant (I := fun _ (service : Service channel) =>
    ∃ taken, Machine.run System.step start.system taken = some service.system) ?_ ⟨[], rfl⟩ h
  rintro past service action next ⟨taken, hrun⟩ hstep
  rcases step_system hstep with ⟨last, hlast⟩ | hsame
  · exact ⟨taken ++ [last], (Machine.run_snoc hrun).trans hlast⟩
  · exact ⟨taken, hsame ▸ hrun⟩

/-- The indexes of the connections stay in line. -/
theorem counted_step {action : Action} (h : service.system.Counted)
    (hstep : service.step codec action = some next) : next.system.Counted := by
  rcases step_system hstep with ⟨taken, htaken⟩ | hsame
  · exact System.counted_step h htaken
  · exact hsame ▸ h

end Service

end EvilResp
